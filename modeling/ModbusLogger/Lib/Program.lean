import Mathlib.Data.List.Induction

/-!
# Programs that issue calls, and pools of them

A program is what a task does between its calls: it ends with a value or an error, or it issues a call
and goes on with the answer. The tasks of a pool share a world, and a call changes the world in one
step, so all interleavings of the calls of the tasks are runs of the pool. How a call ends is a part
of the step, its fate. A task may be dropped at any of its calls.

`Every` is about all calls that a program may issue, whatever the answers are. The rule for pools is
`invariant_iff`: if a call keeps a property of the world exactly under some condition, then a run
keeps it exactly if all its calls meet the condition.
-/

/-- Calls of `C` with answers `A`, errors of `E`. -/
inductive Program (C : Type) (A : C → Type) (E α : Type) where
  | done (result : Except E α)
  | call (c : C) (next : A c → Program C A E α)

namespace Program

variable {C : Type} {A : C → Type} {E α β : Type}

def bind : Program C A E α → (α → Program C A E β) → Program C A E β
  | done (.ok a), f => f a
  | done (.error e), _ => done (.error e)
  | call c next, f => call c fun answer => (next answer).bind f

instance : Monad (Program C A E) where
  pure a := done (.ok a)
  bind := bind

def issue (c : C) : Program C A E (A c) := call c fun answer => done (.ok answer)

def fail (e : E) : Program C A E α := done (.error e)

@[simp] theorem pure_eq (a : α) : (pure a : Program C A E α) = done (.ok a) := rfl

@[simp] theorem done_bind (a : α) (f : α → Program C A E β) :
    (done (.ok a) : Program C A E α) >>= f = f a := rfl

@[simp] theorem fail_bind (e : E) (f : α → Program C A E β) :
    (fail e : Program C A E α) >>= f = fail e := rfl

@[simp] theorem call_bind (c : C) (next : A c → Program C A E α) (f : α → Program C A E β) :
    call c next >>= f = call c fun answer => next answer >>= f := rfl

@[simp] theorem issue_bind (c : C) (f : A c → Program C A E β) : issue c >>= f = call c f := rfl

/-- All calls are in `P`, and a value that is returned is in `Q`. -/
def Every (P : C → Prop) (Q : α → Prop) : Program C A E α → Prop
  | done (.ok a) => Q a
  | done (.error _) => True
  | call c next => P c ∧ ∀ answer, (next answer).Every P Q

variable {P : C → Prop} {Q : α → Prop}

@[simp] theorem every_ok {a : α} : (done (.ok a) : Program C A E α).Every P Q ↔ Q a := .rfl

@[simp] theorem every_fail {e : E} : (fail e : Program C A E α).Every P Q := trivial

@[simp] theorem every_call {c : C} {next : A c → Program C A E α} :
    (call c next).Every P Q ↔ P c ∧ ∀ answer, (next answer).Every P Q := .rfl

@[simp] theorem every_issue {c : C} {Q : A c → Prop} :
    (issue c : Program C A E (A c)).Every P Q ↔ P c ∧ ∀ answer, Q answer := .rfl

@[simp] theorem every_bind {p : Program C A E α} {f : α → Program C A E β} {Q : β → Prop} :
    (p >>= f).Every P Q ↔ p.Every P fun a => (f a).Every P Q := by
  induction p with
  | done result =>
      cases result with
      | ok a => exact .rfl
      | error e => exact .rfl
  | call c next ih => exact and_congr_right fun _ => forall_congr' ih

theorem Every.imp {p : Program C A E α} {P' : C → Prop} {Q' : α → Prop} (h : p.Every P Q)
    (hP : ∀ c, P c → P' c) (hQ : ∀ a, Q a → Q' a) : p.Every P' Q' := by
  induction p with
  | done result =>
      cases result with
      | ok a => exact hQ a h
      | error e => exact trivial
  | call c next ih => exact ⟨hP c h.1, fun answer => ih answer (h.2 answer)⟩

theorem Every.and {p : Program C A E α} {P' : C → Prop} {Q' : α → Prop} (h : p.Every P Q)
    (h' : p.Every P' Q') : p.Every (fun c => P c ∧ P' c) fun a => Q a ∧ Q' a := by
  induction p with
  | done result =>
      cases result with
      | ok a => exact ⟨h, h'⟩
      | error e => exact trivial
  | call c next ih => exact ⟨⟨h.1, h'.1⟩, fun answer => ih answer (h.2 answer) (h'.2 answer)⟩

theorem every_of_forall (p : Program C A E α) (hP : ∀ c, P c) (hQ : ∀ a, Q a) : p.Every P Q := by
  induction p with
  | done result =>
      cases result with
      | ok a => exact hQ a
      | error e => exact trivial
  | call c next ih => exact ⟨hP c, ih⟩

/-- The calls that a program comes to as long as `answer` knows how they end. -/
def ahead (answer : (c : C) → Option (A c)) : Program C A E α → List C
  | done _ => []
  | call c next =>
    c :: match answer c with
      | some a => (next a).ahead answer
      | none => []

theorem Every.ahead {answer : (c : C) → Option (A c)} {p : Program C A E α} (h : p.Every P Q) :
    ∀ c ∈ p.ahead answer, P c := by
  induction p with
  | done result => exact fun c hc => absurd hc List.not_mem_nil
  | call c next ih =>
      intro c' hc'
      unfold Program.ahead at hc'
      rcases List.mem_cons.mp hc' with rfl | hlater
      · exact h.1
      · split at hlater
        · exact ih _ (h.2 _) c' hlater
        · exact absurd hlater List.not_mem_nil

/-- A program that runs alone. Its calls end as the fates say, and when there are none left, it is dropped
at its next call. -/
def runFor {σ F : Type} (perform : (c : C) → F → σ → σ × A c) :
    Program C A E α → List F → σ → σ × Option (Except E α)
  | done result, _, w => (w, some result)
  | call _ _, [], w => (w, none)
  | call c next, fate :: fates, w =>
    (next (perform c fate w).2).runFor perform fates (perform c fate w).1

section RunFor

variable {σ F : Type} {perform : (c : C) → F → σ → σ × A c} {c : C} {next : A c → Program C A E α}
  {fate : F} {fates : List F} {w : σ}

@[simp] theorem runFor_done {result : Except E α} :
    (done result : Program C A E α).runFor perform fates w = (w, some result) := by
  cases fates <;> rfl

@[simp] theorem runFor_fail {e : E} :
    (fail e : Program C A E α).runFor perform fates w = (w, some (.error e)) := runFor_done

@[simp] theorem runFor_dropped : (call c next).runFor perform [] w = (w, none) := rfl

@[simp] theorem runFor_call : (call c next).runFor perform (fate :: fates) w =
    (next (perform c fate w).2).runFor perform fates (perform c fate w).1 := rfl

end RunFor

/-- All errors are in `R`, whatever the answers are. -/
def Raises (R : E → Prop) : Program C A E α → Prop
  | done (.ok _) => True
  | done (.error e) => R e
  | call _ next => ∀ answer, (next answer).Raises R

section Raises

variable {R : E → Prop}

@[simp] theorem raises_ok {a : α} : (done (.ok a) : Program C A E α).Raises R := trivial

@[simp] theorem raises_fail {e : E} : (fail e : Program C A E α).Raises R ↔ R e := .rfl

@[simp] theorem raises_call {c : C} {next : A c → Program C A E α} :
    (call c next).Raises R ↔ ∀ answer, (next answer).Raises R := .rfl

theorem Raises.bind {p : Program C A E α} {f : α → Program C A E β} (h : p.Raises R)
    (hf : ∀ a, (f a).Raises R) : (p >>= f).Raises R := by
  induction p with
  | done result =>
      cases result with
      | ok a => exact hf a
      | error e => exact h
  | call c next ih => exact fun answer => ih answer (h answer)

theorem Raises.runFor {σ F : Type} {perform : (c : C) → F → σ → σ × A c} {fates : List F} {w : σ}
    {e : E} {p : Program C A E α} (h : p.Raises R)
    (herror : (p.runFor perform fates w).2 = some (.error e)) : R e := by
  induction p generalizing fates w with
  | done result =>
      rw [runFor_done] at herror
      obtain rfl := Option.some.inj herror
      exact h
  | call c next ih =>
      cases fates with
      | nil => cases herror
      | cons fate fates => exact ih _ (h _) herror

end Raises

/-- At most one call in `P`, whatever the answers are. -/
def Once (P : C → Prop) : Program C A E α → Prop
  | done _ => True
  | call c next =>
    (P c → ∀ answer, (next answer).Every (fun c => ¬P c) fun _ => True) ∧
      ∀ answer, (next answer).Once P

/-- A program without calls in `P`. -/
theorem Every.once {p : Program C A E α} (h : p.Every (fun c => ¬P c) fun _ => True) : p.Once P := by
  induction p with
  | done result => exact trivial
  | call c next ih => exact ⟨fun hc => absurd hc h.1, fun answer => ih answer (h.2 answer)⟩

/-- Nothing in `P` before the rest. -/
theorem Every.once_bind {p : Program C A E α} {f : α → Program C A E β}
    (h : p.Every (fun c => ¬P c) fun a => (f a).Once P) : (p >>= f).Once P := by
  induction p with
  | done result =>
      cases result with
      | ok a => exact h
      | error e => exact trivial
  | call c next ih => exact ⟨fun hc => absurd hc h.1, fun answer => ih answer (h.2 answer)⟩

/-- Nothing in `P` after the first part. -/
theorem Once.bind {p : Program C A E α} {f : α → Program C A E β} (h : p.Once P)
    (hf : ∀ a, (f a).Every (fun c => ¬P c) fun _ => True) : (p >>= f).Once P := by
  induction p with
  | done result =>
      cases result with
      | ok a => exact (hf a).once
      | error e => exact trivial
  | call c next ih =>
      refine ⟨fun hc answer => ?_, fun answer => ih answer (h.2 answer)⟩
      show ((next answer) >>= f).Every _ _
      rw [every_bind]
      exact (h.1 hc answer).imp (fun _ h => h) fun a _ => hf a

/-- What may be left of a program after some of its calls. -/
inductive Reaches (p : Program C A E α) : Program C A E α → Prop where
  | start : p.Reaches p
  | answered {c : C} {next : A c → Program C A E α} (h : p.Reaches (call c next)) (answer : A c) :
      p.Reaches (next answer)

end Program

/-- Tasks and the world they share. -/
structure Pool (σ C : Type) (A : C → Type) (E : Type) where
  world : σ
  tasks : List (Program C A E Unit)

namespace Pool

open Program

variable {σ C : Type} {A : C → Type} {E K F : Type}

/-- What happens to a pool. -/
inductive Step (K F : Type) where
  | start (command : K)
  | advance (i : Nat) (fate : F)
  | drop (i : Nat)
  deriving DecidableEq, Repr

variable (task : K → Program C A E Unit) (perform : (c : C) → F → σ → σ × A c)

/-- A step of a task that has ended does nothing. -/
def step (pool : Pool σ C A E) : Step K F → Pool σ C A E
  | .start command => { pool with tasks := pool.tasks ++ [task command] }
  | .advance i fate =>
    match pool.tasks[i]? with
    | some (.call c next) =>
      ⟨(perform c fate pool.world).1, pool.tasks.set i (next (perform c fate pool.world).2)⟩
    | _ => pool
  | .drop i => { pool with tasks := pool.tasks.set i (done (.ok ())) }

/-- A run from a world without tasks. -/
def run (world : σ) (steps : List (Step K F)) : Pool σ C A E :=
  steps.foldl (step task perform) ⟨world, []⟩

theorem run_concat (world : σ) (steps : List (Step K F)) (s : Step K F) :
    run task perform world (steps ++ [s]) = step task perform (run task perform world steps) s :=
  List.foldl_append

/-- The call that a step performs. -/
def issued (pool : Pool σ C A E) : Step K F → Option (C × F)
  | .advance i fate =>
    match pool.tasks[i]? with
    | some (.call c _) => some (c, fate)
    | _ => none
  | _ => none

/-- What a step does to the world. -/
theorem step_world (pool : Pool σ C A E) (s : Step K F) :
    (step task perform pool s).world =
      match issued pool s with
      | some (c, fate) => (perform c fate pool.world).1
      | none => pool.world := by
  cases s with
  | start command => rfl
  | drop i => rfl
  | advance i fate =>
      unfold step issued
      dsimp only
      cases pool.tasks[i]? with
      | none => rfl
      | some task => cases task <;> rfl

/-- The calls that the tasks may still issue are in `P`. -/
def Every (P : C → Prop) (pool : Pool σ C A E) : Prop :=
  ∀ task ∈ pool.tasks, task.Every P fun _ => True

variable {P : C → Prop} {task perform}

theorem Every.issued {pool : Pool σ C A E} (h : pool.Every P) {s : Step K F} {c : C} {fate : F}
    (hs : pool.issued s = some (c, fate)) : P c := by
  cases s with
  | start command => cases hs
  | drop i => cases hs
  | advance i fate =>
      unfold Pool.issued at hs
      dsimp only at hs
      split at hs
      · next next' htask =>
          cases hs
          exact (h _ (List.mem_of_getElem? htask)).1
      · cases hs

theorem Every.step_of {pool : Pool σ C A E} (h : pool.Every P) {s : Step K F}
    (htask : ∀ command, s = .start command → (task command).Every P fun _ => True) :
    (step task perform pool s).Every P := by
  intro task' htask'
  cases s with
  | start command =>
      rcases List.mem_append.mp htask' with hold | hnew
      · exact h task' hold
      · obtain rfl := List.mem_singleton.mp hnew
        exact htask command rfl
  | drop i =>
      rcases List.mem_or_eq_of_mem_set htask' with hold | rfl
      · exact h task' hold
      · exact trivial
  | advance i fate =>
      unfold Pool.step at htask'
      dsimp only at htask'
      split at htask'
      · next c next hcall =>
          rcases List.mem_or_eq_of_mem_set htask' with hold | rfl
          · exact h task' hold
          · exact (h _ (List.mem_of_getElem? hcall)).2 _
      · exact h task' htask'

theorem Every.step {pool : Pool σ C A E} (h : pool.Every P)
    (htask : ∀ command, (task command).Every P fun _ => True) (s : Step K F) :
    (step task perform pool s).Every P :=
  h.step_of fun command _ => htask command

theorem every_run (htask : ∀ command, (task command).Every P fun _ => True) (world : σ)
    (steps : List (Step K F)) : (run task perform world steps).Every P := by
  induction steps using List.reverseRecOn with
  | nil => exact fun _ hmem => absurd hmem List.not_mem_nil
  | append_singleton steps s ih =>
      rw [run_concat]
      exact ih.step htask s

/-- The commands of a run, at the places of their tasks. -/
def commands (steps : List (Step K F)) : List K :=
  steps.filterMap fun
    | .start command => some command
    | _ => none

theorem mem_commands {steps : List (Step K F)} {command : K} :
    command ∈ commands steps ↔ .start command ∈ steps := by
  unfold commands
  rw [List.mem_filterMap]
  constructor
  · rintro ⟨s, hs, heq⟩
    cases s with
    | start command' =>
        obtain rfl := Option.some.inj heq
        exact hs
    | advance i fate => cases heq
    | drop i => cases heq
  · exact fun h => ⟨_, h, rfl⟩

/-- The same for a run of some of the commands. -/
theorem every_run_of {steps : List (Step K F)}
    (htask : ∀ command ∈ commands steps, (task command).Every P fun _ => True) (world : σ) :
    (run task perform world steps).Every P := by
  induction steps using List.reverseRecOn with
  | nil => exact fun _ hmem => absurd hmem List.not_mem_nil
  | append_singleton steps s ih =>
      rw [run_concat]
      refine (ih fun command h => ?_).step_of fun command hs => ?_
      · exact htask command (mem_commands.mpr (List.mem_append_left _ (mem_commands.mp h)))
      · exact htask command (mem_commands.mpr (List.mem_append_right _ (hs ▸ List.mem_cons_self)))

theorem length_step (pool : Pool σ C A E) (s : Step K F) :
    (step task perform pool s).tasks.length = pool.tasks.length + (commands [s]).length := by
  cases s with
  | start command => exact List.length_append
  | drop i => exact List.length_set
  | advance i fate =>
      unfold step
      dsimp only
      split
      · exact List.length_set
      · rfl

theorem length_tasks (world : σ) (steps : List (Step K F)) :
    (run task perform world steps).tasks.length = (commands steps).length := by
  induction steps using List.reverseRecOn with
  | nil => rfl
  | append_singleton steps s ih =>
      rw [run_concat, length_step, ih, commands, commands, commands, List.filterMap_append,
        List.length_append]

/-- The task of a command issues what the command may issue. -/
theorem every_task {P : K → C → Prop}
    (htask : ∀ command, (task command).Every (P command) fun _ => True) (world : σ)
    {steps : List (Step K F)} {i : Nat} {command : K} {p : Program C A E Unit}
    (hcommand : (commands steps)[i]? = some command)
    (hp : (run task perform world steps).tasks[i]? = some p) : p.Every (P command) fun _ => True := by
  induction steps using List.reverseRecOn generalizing p with
  | nil => cases hcommand
  | append_singleton steps s ih =>
      rw [run_concat] at hp
      rw [commands, List.filterMap_append] at hcommand
      cases s with
      | start new =>
          change (_ ++ [task new])[i]? = some p at hp
          change (commands steps ++ [new])[i]? = some command at hcommand
          rw [List.getElem?_append] at hp hcommand
          rw [length_tasks] at hp
          split at hp
          · next hold =>
              rw [if_pos hold] at hcommand
              exact ih hcommand hp
          · next hnew =>
              rw [if_neg hnew] at hcommand
              obtain rfl := List.mem_singleton.mp (List.mem_of_getElem? hp)
              obtain rfl := List.mem_singleton.mp (List.mem_of_getElem? hcommand)
              exact htask command
      | drop j =>
          change (commands steps ++ [])[i]? = some command at hcommand
          rw [List.append_nil] at hcommand
          change (List.set _ j _)[i]? = some p at hp
          rw [List.getElem?_set] at hp
          split at hp
          · split at hp
            · cases hp
              exact trivial
            · cases hp
          · exact ih hcommand hp
      | advance j fate =>
          change (commands steps ++ [])[i]? = some command at hcommand
          rw [List.append_nil] at hcommand
          unfold step at hp
          dsimp only at hp
          split at hp
          · next c next hcall =>
              dsimp only at hp
              rw [List.getElem?_set] at hp
              split at hp
              · next hij =>
                  subst hij
                  split at hp
                  · cases hp
                    exact (ih hcommand hcall).2 _
                  · cases hp
              · exact ih hcommand hp
          · exact ih hcommand hp

/-- What a task issues, its command may issue. -/
theorem issued_of_command {P : K → C → Prop}
    (htask : ∀ command, (task command).Every (P command) fun _ => True) {world : σ}
    {steps : List (Step K F)} {i : Nat} {command : K} {c : C} {fate : F}
    (hcommand : (commands steps)[i]? = some command)
    (hissued : (run task perform world steps).issued (.advance i fate : Step K F) = some (c, fate)) :
    P command c := by
  unfold issued at hissued
  dsimp only at hissued
  split at hissued
  · next c' next hcall =>
      cases hissued
      exact (every_task htask world hcommand hcall).1
  · cases hissued

/-- What the calls from some point on keep, the rest of the run keeps. -/
theorem keeps_from {I : σ → Prop} {world : σ} {pre post : List (Step K F)}
    (hcall : ∀ mid s rest, post = mid ++ s :: rest → ∀ c fate,
      (run task perform world (pre ++ mid)).issued s = some (c, fate) →
        I (run task perform world (pre ++ mid)).world →
          I (perform c fate (run task perform world (pre ++ mid)).world).1)
    (h : I (run task perform world pre).world) : I (run task perform world (pre ++ post)).world := by
  induction post using List.reverseRecOn with
  | nil =>
      rw [List.append_nil]
      exact h
  | append_singleton post s ih =>
      have hbefore := ih fun mid s' rest hpost => hcall mid s' (rest ++ [s]) (by simp [hpost])
      rw [← List.append_assoc, run_concat, step_world]
      split
      · next c fate hissued => exact hcall post s [] rfl c fate hissued hbefore
      · exact hbefore

/-- A run keeps a property of the world exactly if each of its calls does. -/
theorem invariant_iff {I : σ → Prop} {G : C → F → σ → Prop}
    (htask : ∀ command, (task command).Every P fun _ => True)
    (hcall : ∀ c fate w, P c → I w → (I (perform c fate w).1 ↔ G c fate w))
    {world : σ} (hworld : I world) (steps : List (Step K F)) :
    (∀ pre post, steps = pre ++ post → I (run task perform world pre).world) ↔
      ∀ pre s post, steps = pre ++ s :: post → ∀ c fate,
        (run task perform world pre).issued s = some (c, fate) →
          G c fate (run task perform world pre).world := by
  constructor
  · intro h pre s post hsteps c fate hissued
    have hafter : I (run task perform world (pre ++ [s])).world := h _ post (by simp [hsteps])
    rw [run_concat, step_world, hissued] at hafter
    exact (hcall c fate _ ((every_run htask world pre).issued hissued) (h pre _ hsteps)).mp hafter
  · intro h pre
    induction pre using List.reverseRecOn with
    | nil => exact fun _ _ => hworld
    | append_singleton pre s ih =>
        intro post hsteps
        rw [List.append_assoc] at hsteps
        have hbefore := ih ([s] ++ post) hsteps
        rw [run_concat, step_world]
        split
        · next c fate hissued =>
            have hevery : (run task perform world pre).Every P := every_run htask world pre
            exact (hcall c fate _ (hevery.issued hissued) hbefore).mpr (h pre s post hsteps c fate hissued)
        · exact hbefore

end Pool
