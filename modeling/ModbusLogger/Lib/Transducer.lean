import Mathlib.Data.List.Induction
import Mathlib.Logic.Function.Basic

/-!
# Transducers

A machine that reads inputs one by one and emits a list of outputs at each. `run` is the total
machine, `runM` the one that may fail. `simulation` is the refinement rule between the two: a
failing machine that matches a total one step by step never fails and emits the same.

`keyed` runs one copy of a machine for each key. The copies do not see each other, so what one of
them does is a run over the inputs under its own key.
-/

namespace Transducer

variable {σ τ ι ο : Type*}

/-! ## Lists that grow at the end -/

section Grow

variable {α : Type*} {l : List α} {x : α}

theorem forall_mem_concat {p : α → Prop} : (∀ y ∈ l ++ [x], p y) ↔ (∀ y ∈ l, p y) ∧ p x := by
  rw [List.forall_mem_append, List.forall_mem_singleton]

theorem pairwise_concat {r : α → α → Prop} :
    (l ++ [x]).Pairwise r ↔ l.Pairwise r ∧ ∀ y ∈ l, r y x := by
  simp [List.pairwise_append]

end Grow

/-! ## Runs -/

/-- The final state and everything emitted. -/
def run (step : σ → ι → σ × List ο) : σ → List ι → σ × List ο
  | s, [] => (s, [])
  | s, i :: is => ((run step (step s i).1 is).1, (step s i).2 ++ (run step (step s i).1 is).2)

/-- `run` of a machine whose step may fail. -/
def runM (step : σ → ι → Option (σ × List ο)) : σ → List ι → Option (σ × List ο)
  | s, [] => some (s, [])
  | s, i :: is => do
    let (s, out) ← step s i
    let (s, rest) ← runM step s is
    return (s, out ++ rest)

section Run

variable (step : σ → ι → σ × List ο)

@[simp] theorem run_nil (s : σ) : run step s [] = (s, []) := rfl

theorem run_cons (s : σ) (i : ι) (is : List ι) :
    run step s (i :: is) =
      ((run step (step s i).1 is).1, (step s i).2 ++ (run step (step s i).1 is).2) := rfl

theorem run_append (s : σ) (is js : List ι) :
    run step s (is ++ js) =
      ((run step (run step s is).1 js).1,
        (run step s is).2 ++ (run step (run step s is).1 js).2) := by
  induction is generalizing s with
  | nil => rfl
  | cons i is ih => simp only [List.cons_append, run_cons, ih, List.append_assoc]

theorem run_concat (s : σ) (is : List ι) (i : ι) :
    run step s (is ++ [i]) =
      ((step (run step s is).1 i).1, (run step s is).2 ++ (step (run step s is).1 i).2) := by
  rw [run_append, run_cons, run_nil, List.append_nil]

/-- What holds at the start and survives every step, with the inputs and outputs so far in view,
holds after every run. -/
theorem run_induction {motive : List ι → σ → List ο → Prop} {s : σ}
    (start : motive [] s [])
    (next : ∀ is t out i, motive is t out →
      motive (is ++ [i]) (step t i).1 (out ++ (step t i).2)) (is : List ι) :
    motive is (run step s is).1 (run step s is).2 := by
  induction is using List.reverseRecOn with
  | nil => exact start
  | append_singleton is i ih =>
      rw [run_concat]
      exact next is _ _ i ih

end Run

/-- **Refinement.** If every step of `conc` succeeds on related states, emits what `abst` emits and
keeps the states related, so does every run. -/
theorem simulation {conc : σ → ι → Option (σ × List ο)} {abst : τ → ι → τ × List ο}
    {R : σ → τ → Prop}
    (hstep : ∀ s t i, R s t → ∃ s', conc s i = some (s', (abst t i).2) ∧ R s' (abst t i).1)
    {s : σ} {t : τ} (h : R s t) (is : List ι) :
    ∃ s', runM conc s is = some (s', (run abst t is).2) ∧ R s' (run abst t is).1 := by
  induction is generalizing s t with
  | nil => exact ⟨s, rfl, h⟩
  | cons i is ih =>
      obtain ⟨s₁, hs₁, hR⟩ := hstep s t i h
      obtain ⟨s₂, hs₂, hR₂⟩ := ih hR
      refine ⟨s₂, ?_, hR₂⟩
      rw [runM, hs₁, run_cons]
      simp only [Option.bind_eq_bind, Option.bind_some, hs₂]
      rfl

section Failing

variable (step : σ → ι → Option (σ × List ο))

@[simp] theorem runM_nil (s : σ) : runM step s [] = some (s, []) := rfl

theorem runM_cons (s : σ) (i : ι) (is : List ι) :
    runM step s (i :: is) = (step s i).bind fun r =>
      (runM step r.1 is).map fun r' => (r'.1, r.2 ++ r'.2) := by
  rw [runM]
  cases step s i with
  | none => rfl
  | some r =>
      obtain ⟨s', out⟩ := r
      show (runM step s' is).bind _ = (runM step s' is).map _
      cases runM step s' is <;> rfl

theorem runM_append (s : σ) (is js : List ι) :
    runM step s (is ++ js) = (runM step s is).bind fun r =>
      (runM step r.1 js).map fun r' => (r'.1, r.2 ++ r'.2) := by
  induction is generalizing s with
  | nil => simp
  | cons i is ih =>
      rw [List.cons_append, runM_cons, runM_cons]
      cases step s i with
      | none => rfl
      | some r =>
          simp only [Option.bind_some, ih]
          cases runM step r.1 is with
          | none => rfl
          | some r' => simp [Function.comp_def]

/-- What holds at the start and survives every step that does not fail, with the outputs so far in
view, holds after every run that does not. -/
theorem runM_invariant {I : σ → List ο → Prop} {s s' : σ} {is : List ι} {out : List ο}
    (hstep : ∀ t out i t' o, I t out → step t i = some (t', o) → I t' (out ++ o))
    (hs : I s []) (h : runM step s is = some (s', out)) : I s' out := by
  have hgeneral : ∀ (is : List ι) (s : σ) (before : List ο), I s before →
      ∀ s' out, runM step s is = some (s', out) → I s' (before ++ out) := by
    intro is
    induction is with
    | nil =>
        intro s before hs s' out h
        obtain ⟨rfl, rfl⟩ := Prod.mk.inj (Option.some.inj h)
        rwa [List.append_nil]
    | cons i is ih =>
        intro s before hs s' out h
        rw [runM_cons] at h
        obtain ⟨⟨t, o⟩, ht, h⟩ := Option.bind_eq_some_iff.mp h
        obtain ⟨⟨t', o'⟩, ht', heq⟩ := Option.map_eq_some_iff.mp h
        obtain ⟨rfl, rfl⟩ := Prod.mk.inj heq
        rw [← List.append_assoc]
        exact ih t _ (hstep s before i t o hs ht) t' o' ht'
  exact hgeneral is s [] hs s' out h

/-- A machine that never fails where `I` holds, and keeps it. -/
theorem runM_total {I : σ → Prop} (hstep : ∀ s i, I s → ∃ r, step s i = some r ∧ I r.1) {s : σ}
    (hs : I s) (is : List ι) : ∃ r, runM step s is = some r ∧ I r.1 := by
  induction is generalizing s with
  | nil => exact ⟨(s, []), rfl, hs⟩
  | cons i is ih =>
      obtain ⟨r, hr, hI⟩ := hstep s i hs
      obtain ⟨r', hr', hI'⟩ := ih hI
      refine ⟨(r'.1, r.2 ++ r'.2), ?_, hI'⟩
      rw [runM_cons, hr, Option.bind_some, hr', Option.map_some]

end Failing

section Each

/-- The machine that emits what a step emits as one item, so that the outputs line up with the
inputs. -/
def each (step : σ → ι → σ × List ο) (s : σ) (i : ι) : σ × List (List ο) :=
  ((step s i).1, [(step s i).2])

/-- `each` of a machine whose step may fail. -/
def eachM (step : σ → ι → Option (σ × List ο)) (s : σ) (i : ι) : Option (σ × List (List ο)) :=
  (step s i).map fun r => (r.1, [r.2])

theorem length_run_each (step : σ → ι → σ × List ο) (s : σ) (is : List ι) :
    (run (each step) s is).2.length = is.length := by
  induction is generalizing s with
  | nil => rfl
  | cons i is ih => rw [run_cons, List.length_append, ih, List.length_cons, each,
      List.length_singleton, Nat.add_comm]

/-- The outputs at a segment of the inputs are those of a run from the state before it. -/
theorem run_each_segment (step : σ → ι → σ × List ο) (s : σ) (before is after : List ι) :
    ((run (each step) s (before ++ is ++ after)).2.drop before.length).take is.length =
      (run (each step) (run (each step) s before).1 is).2 := by
  rw [List.append_assoc, run_append, run_append, ← length_run_each step s before, List.drop_left,
    ← length_run_each step (run (each step) s before).1 is, List.take_left]

end Each

section Keyed

variable {κ : Type*} [DecidableEq κ]

/-- One copy of the machine for each key; an input goes to the copy of its key. -/
def keyed (step : σ → ι → Option (σ × List ο)) (m : κ → σ) (i : κ × ι) :
    Option ((κ → σ) × List (κ × ο)) :=
  (step (m i.1) i.2).map fun r => (Function.update m i.1 r.1, r.2.map (Prod.mk i.1))

/-- What was read or written under `k`. -/
def ofKey {β : Type*} (k : κ) (l : List (κ × β)) : List β :=
  l.filterMap fun x => if x.1 = k then some x.2 else none

@[simp] theorem ofKey_append {β : Type*} (k : κ) (l l' : List (κ × β)) :
    ofKey k (l ++ l') = ofKey k l ++ ofKey k l' := List.filterMap_append

theorem ofKey_cons_self {β : Type*} (k : κ) (x : β) (l : List (κ × β)) :
    ofKey k ((k, x) :: l) = x :: ofKey k l := by simp [ofKey]

theorem ofKey_cons_ne {β : Type*} {k k' : κ} (h : k' ≠ k) (x : β) (l : List (κ × β)) :
    ofKey k ((k', x) :: l) = ofKey k l := by simp [ofKey, h]

theorem ofKey_map_self {β : Type*} (k : κ) (l : List β) : ofKey k (l.map (Prod.mk k)) = l := by
  induction l with
  | nil => rfl
  | cons x l ih => rw [List.map_cons, ofKey_cons_self, ih]

theorem ofKey_map_ne {β : Type*} {k k' : κ} (h : k' ≠ k) (l : List β) :
    ofKey k (l.map (Prod.mk k')) = [] := by
  induction l with
  | nil => rfl
  | cons x l ih => rw [List.map_cons, ofKey_cons_ne h, ih]

variable {step : σ → ι → Option (σ × List ο)}

/-- The machines run independently: if none of them fails on its own inputs, all of them together
do not, and each ends where it would end alone. -/
theorem runM_keyed {m : κ → σ} {is : List (κ × ι)}
    (h : ∀ k, ∃ r, runM step (m k) (ofKey k is) = some r) :
    ∃ m' out, runM (keyed step) m is = some (m', out) ∧
      ∀ k, runM step (m k) (ofKey k is) = some (m' k, ofKey k out) := by
  induction is generalizing m with
  | nil => exact ⟨m, [], rfl, fun k => rfl⟩
  | cons i is ih =>
      obtain ⟨k₀, i⟩ := i
      obtain ⟨r₀, hr₀⟩ := h k₀
      rw [ofKey_cons_self, runM_cons] at hr₀
      obtain ⟨r, hr, hrest⟩ := Option.bind_eq_some_iff.mp hr₀
      obtain ⟨r', hr', rfl⟩ := Option.map_eq_some_iff.mp hrest
      have hall : ∀ k, ∃ r'', runM step (Function.update m k₀ r.1 k) (ofKey k is) = some r'' := by
        intro k
        by_cases hk : k = k₀
        · subst hk
          exact ⟨r', by rw [Function.update_self, hr']⟩
        · obtain ⟨r'', hr''⟩ := h k
          rw [ofKey_cons_ne (Ne.symm hk)] at hr''
          exact ⟨r'', by rw [Function.update_of_ne hk, hr'']⟩
      obtain ⟨m', out, hrun, hsplit⟩ := ih hall
      refine ⟨m', r.2.map (Prod.mk k₀) ++ out, ?_, ?_⟩
      · rw [runM_cons, keyed, hr]
        simp only [Option.map_some, Option.bind_some, hrun]
      · intro k
        have hk' := hsplit k
        by_cases hk : k = k₀
        · subst hk
          rw [Function.update_self] at hk'
          rw [ofKey_cons_self, runM_cons, hr, Option.bind_some, hk', Option.map_some, ofKey_append,
            ofKey_map_self]
        · rw [Function.update_of_ne hk] at hk'
          rw [ofKey_cons_ne (Ne.symm hk), hk', ofKey_append, ofKey_map_ne (Ne.symm hk),
            List.nil_append]

end Keyed

/-! ## Machines without output -/

/-- What holds at the start and is kept by every step holds at the end. -/
theorem foldlM_invariant {step : σ → ι → Option σ} {I : σ → Prop} {is : List ι}
    (hstep : ∀ s i s', i ∈ is → I s → step s i = some s' → I s') {s s' : σ} (hs : I s)
    (h : is.foldlM step s = some s') : I s' := by
  induction is generalizing s with
  | nil =>
      obtain rfl := Option.some.inj h
      exact hs
  | cons i is ih =>
      rw [List.foldlM_cons] at h
      obtain ⟨a, ha, h⟩ := Option.bind_eq_some_iff.mp h
      have hrest := fun s i s' hi => hstep s i s' (List.mem_cons_of_mem _ hi)
      exact ih hrest (hstep s i a List.mem_cons_self hs ha) h

end Transducer
