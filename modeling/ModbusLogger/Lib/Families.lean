import ModbusLogger.Lib.Program

/-!
# Families of tasks that share a world

Each family has commands, calls, answers and fates of its own. All of them run in one pool: a call says
which family it is of, and a fate says for each family how a call of it ends. The calls of one family
are known from the family alone, and the rule `run_keeps` puts the families together: what every call
of every family keeps, each run keeps.
-/

namespace Families

open Program

variable {ι σ E α : Type} {K C F : ι → Type} {A : (k : ι) → C k → Type}

abbrev Calls (C : ι → Type) : Type := (k : ι) × C k

abbrev Answers (A : (k : ι) → C k → Type) (c : Calls C) : Type := A c.1 c.2

abbrev Fates (F : ι → Type) : Type := (k : ι) → F k

abbrev Step (K F : ι → Type) : Type := Pool.Step ((k : ι) × K k) (Fates F)

/-- A task of one family, among the tasks of all. -/
def lift (k : ι) : Program (C k) (A k) E α → Program (Calls C) (Answers A) E α
  | .done result => .done result
  | .call c next => .call ⟨k, c⟩ fun answer => lift k (next answer)

def task (tasks : (k : ι) → K k → Program (C k) (A k) E Unit) (command : (k : ι) × K k) :
    Program (Calls C) (Answers A) E Unit :=
  lift command.1 (tasks command.1 command.2)

def perform (performs : (k : ι) → (c : C k) → F k → σ → σ × A k c) (c : Calls C) (fate : Fates F)
    (w : σ) : σ × Answers A c :=
  performs c.1 c.2 (fate c.1) w

/-- The world and the tasks of all families. -/
def run (tasks : (k : ι) → K k → Program (C k) (A k) E Unit)
    (performs : (k : ι) → (c : C k) → F k → σ → σ × A k c) (world : σ) (steps : List (Step K F)) :
    Pool σ (Calls C) (Answers A) E :=
  Pool.run (task tasks) (perform performs) world steps

/-- The calls are those of the family. -/
theorem every_lift {k : ι} {P : Calls C → Prop} {Q : α → Prop} {p : Program (C k) (A k) E α} :
    (lift k p).Every P Q ↔ p.Every (fun c => P ⟨k, c⟩) Q := by
  induction p with
  | done result =>
      cases result with
      | ok a => exact .rfl
      | error e => exact .rfl
  | call c next ih => exact and_congr_right fun _ => forall_congr' ih

variable {tasks : (k : ι) → K k → Program (C k) (A k) E Unit}
  {performs : (k : ι) → (c : C k) → F k → σ → σ × A k c} {P : (k : ι) → C k → Prop}
  {I : σ → Prop} {world : σ}

theorem run_every (htask : ∀ k command, (tasks k command).Every (P k) fun _ => True) (world : σ)
    (steps : List (Step K F)) : (run tasks performs world steps).Every fun c => P c.1 c.2 :=
  Pool.every_run (fun command => every_lift.mpr (htask command.1 command.2)) world steps

/-- **Invariants.** -/
theorem run_keeps (htask : ∀ k command, (tasks k command).Every (P k) fun _ => True)
    (hcall : ∀ k c fate w, P k c → I w → I (performs k c fate w).1) (hworld : I world)
    (steps : List (Step K F)) : I (run tasks performs world steps).world := by
  induction steps using List.reverseRecOn with
  | nil => exact hworld
  | append_singleton steps s ih =>
      rw [run, Pool.run_concat, Pool.step_world]
      split
      · next c fate hissued =>
          apply hcall c.1 c.2 (fate c.1) _ _ ih
          exact (run_every htask world steps).issued hissued
      · exact ih

/-- The same for a run of some of the commands. -/
theorem run_keeps_of {Q : (k : ι) → K k → Prop} {steps : List (Step K F)}
    (htask : ∀ k command, Q k command → (tasks k command).Every (P k) fun _ => True)
    (hcall : ∀ k c fate w, P k c → I w → I (performs k c fate w).1) (hworld : I world)
    (hsteps : ∀ command ∈ Pool.commands steps, Q command.1 command.2) :
    I (run tasks performs world steps).world := by
  induction steps using List.reverseRecOn with
  | nil => exact hworld
  | append_singleton steps s ih =>
      have hbefore : ∀ command ∈ Pool.commands steps, Q command.1 command.2 := fun command h =>
        hsteps command (Pool.mem_commands.mpr (List.mem_append_left _ (Pool.mem_commands.mp h)))
      have hevery : (run tasks performs world steps).Every fun c => P c.1 c.2 :=
        Pool.every_run_of (fun command h => every_lift.mpr (htask _ _ (hbefore command h))) world
      rw [run, Pool.run_concat, Pool.step_world]
      split
      · next c fate hissued => exact hcall c.1 c.2 (fate c.1) _ (hevery.issued hissued) (ih hbefore)
      · exact ih hbefore

end Families
