import Mathlib.Data.List.Infix
import ModbusLogger.Lib.Execution

/-!
# Conveyors

Items that enter a system behind all others and leave it at the front. What a conveyor does in one
step is an equation between lists, and so is what it does in an execution: what it held and what was
put in is what was taken out and what it still holds. Nothing is lost then, nothing comes twice, and
nothing overtakes. Conveyors that hand over to each other are one conveyor.
-/

namespace Execution

variable {σ A M N : Type*} (step : σ → A → σ)

/-- What is observed along an execution. -/
def collect (observe : σ → A → List M) : σ → List A → List M
  | _, [] => []
  | s, a :: actions => observe s a ++ collect observe (step s a) actions

theorem collect_concat (observe : σ → A → List M) (s : σ) (actions : List A) (a : A) :
    collect step observe s (actions ++ [a]) =
      collect step observe s actions ++ observe (after step s actions) a := by
  induction actions generalizing s with
  | nil => exact List.append_nil _
  | cons a' actions ih =>
      rw [List.cons_append, collect, ih, collect, List.append_assoc]
      rfl

theorem collect_filterMap (observe : σ → A → List M) (f : M → Option N) (s : σ) (actions : List A) :
    collect step (fun s a => (observe s a).filterMap f) s actions =
      (collect step observe s actions).filterMap f := by
  induction actions generalizing s with
  | nil => rfl
  | cons a actions ih =>
      show (observe s a).filterMap f ++ _ = (observe s a ++ _).filterMap f
      rw [ih, List.filterMap_append]

/-! ## Channels -/

section Channels

variable (l : List M) (x : M)

/-- What a step sends into a channel, seen from before and after it. -/
def entered (before behind : List M) : List M := behind.drop before.length

/-- What a step receives from a channel. -/
def left (before behind : List M) : List M := before.take (before.length - behind.length)

@[simp] theorem entered_self : entered l l = [] := List.drop_length

@[simp] theorem entered_concat : entered l (l ++ [x]) = [x] := List.drop_left

@[simp] theorem entered_rest : entered (x :: l) l = [] :=
  List.drop_eq_nil_of_le (Nat.le_succ l.length)

@[simp] theorem left_self : left l l = [] := by rw [left, Nat.sub_self, List.take_zero]

@[simp] theorem left_concat : left l (l ++ [x]) = [] := by
  rw [left, List.length_append, Nat.sub_eq_zero_of_le (Nat.le_add_right _ _), List.take_zero]

@[simp] theorem left_rest : left (x :: l) l = [x] := by
  rw [left, List.length_cons, Nat.add_sub_cancel_left, List.take_one, List.head?_cons,
    Option.toList_some]

theorem left_append_tail : left l l.tail ++ l.tail = l := by
  cases l with
  | nil => rfl
  | cons x l => rw [List.tail_cons, left_rest, List.singleton_append]

end Channels

/-! ## Conveyors -/

/-- On states in `I`, which all steps keep, items enter `content` behind the others and leave it at
the front. -/
structure Conveys (I : σ → Prop) (content : σ → List M) (put take : σ → A → List M) : Prop where
  keeps : ∀ s a, I s → I (step s a)
  moves : ∀ s a, I s → content s ++ put s a = take s a ++ content (step s a)

variable {step} {I : σ → Prop} {content content' : σ → List M} {put pass take : σ → A → List M}

/-- **Conservation.** -/
theorem Conveys.execution (h : Conveys step I content put take) {s : σ} (hs : I s)
    (actions : List A) :
    content s ++ collect step put s actions =
      collect step take s actions ++ content (after step s actions) := by
  induction actions generalizing s with
  | nil => exact List.append_nil _
  | cons a actions ih =>
      calc content s ++ (put s a ++ collect step put (step s a) actions)
          = take s a ++ (content (step s a) ++ collect step put (step s a) actions) := by
            rw [← List.append_assoc, h.moves s a hs, List.append_assoc]
        _ = take s a ++ (collect step take (step s a) actions ++
              content (after step (step s a) actions)) := by
            rw [ih (h.keeps s a hs)]
        _ = (take s a ++ collect step take (step s a) actions) ++
              content (after step (step s a) actions) := (List.append_assoc _ _ _).symm

/-- What one conveyor gives away goes to the next one. -/
theorem Conveys.trans (hfirst : Conveys step I content put pass)
    (hsecond : Conveys step I content' pass take) :
    Conveys step I (fun s => content' s ++ content s) put take where
  keeps := hfirst.keeps
  moves s a hs := by
    rw [List.append_assoc, hfirst.moves s a hs, ← List.append_assoc, hsecond.moves s a hs,
      List.append_assoc]

/-- Some of the items, or what they are about. -/
theorem Conveys.filterMap (h : Conveys step I content put take) (f : M → Option N) :
    Conveys step I (fun s => (content s).filterMap f) (fun s a => (put s a).filterMap f)
      fun s a => (take s a).filterMap f where
  keeps := h.keeps
  moves s a hs := by rw [← List.filterMap_append, h.moves s a hs, List.filterMap_append]

theorem Conveys.after (h : Conveys step I content put take) {s : σ} (hs : I s)
    (actions : List A) : I (after step s actions) := by
  induction actions using List.reverseRecOn with
  | nil => exact hs
  | append_singleton actions a ih =>
      rw [after_concat]
      exact h.keeps _ a ih

/-- All that was taken was put in, in this order and as often, and at most `limit` items are behind. -/
structure Delivered (limit : Nat) (put taken : List M) : Prop where
  inOrder : taken <+: put
  behind : put.length ≤ taken.length + limit

/-- A conveyor that is empty at the start and never holds more than `limit` items. -/
theorem Conveys.delivered (h : Conveys step I content put take) {limit : Nat}
    (hlimit : ∀ s, I s → (content s).length ≤ limit) {s : σ} (hs : I s) (hempty : content s = [])
    (actions : List A) :
    Delivered limit (collect step put s actions) (collect step take s actions) := by
  have hrun := h.execution hs actions
  rw [hempty, List.nil_append] at hrun
  refine ⟨⟨_, hrun.symm⟩, ?_⟩
  rw [hrun, List.length_append]
  exact Nat.add_le_add_left (hlimit _ (h.after hs actions)) _

end Execution
