import ModbusLogger.Lib.Program

/-!
# Guarantees of tasks that know the past

A task acts on answers that it got earlier, while other tasks go on changing the world. `Sat` says that
a program, started at some point of a run, issues only calls that meet a guarantee, whatever steps of
others come between its own. The guarantee may speak about the whole run so far, and so it can say
where an answer came from. The rule is `guarantee`: if all tasks keep the guarantee as long as an
invariant holds, and calls that meet it keep the invariant, then both hold in every run.
-/

namespace Pool

open Program

variable {σ C : Type} {A : C → Type} {E K F : Type} (task : K → Program C A E Unit)
  (perform : (c : C) → F → σ → σ × A c) (world : σ) (I : List (Step K F) → Prop)
  (G : List (Step K F) → Nat → C → F → Prop) (self : Nat)

/-- From the point `pre` on, the calls of the task `self` meet `G`, and a value that is returned meets
`Q`. -/
def Sat {α : Type} (Q : α → List (Step K F) → Prop) :
    Program C A E α → List (Step K F) → Prop
  | .done (.ok a), pre => Q a pre
  | .done (.error _), _ => True
  | .call c next, pre => ∀ now fate, pre <+: now → I now →
      (run task perform world now).issued (.advance self fate : Step K F) = some (c, fate) →
        G now self c fate ∧ Sat Q (next (perform c fate (run task perform world now).world).2)
          (now ++ [.advance self fate])

variable {task perform world I G self} {α β : Type} {Q : α → List (Step K F) → Prop}
  {pre : List (Step K F)}

@[simp] theorem sat_fail {e : E} :
    Sat task perform world I G self Q (fail e : Program C A E α) pre := trivial

theorem sat_bind {p : Program C A E α} {f : α → Program C A E β} {Q : β → List (Step K F) → Prop}
    (h : Sat task perform world I G self
      (fun a now => Sat task perform world I G self Q (f a) now) p pre) :
    Sat task perform world I G self Q (p >>= f) pre := by
  induction p generalizing pre with
  | done result =>
      cases result with
      | ok a => exact h
      | error e => exact trivial
  | call c next ih =>
      intro now fate hnow hI hissued
      obtain ⟨hG, hnext⟩ := h now fate hnow hI hissued
      exact ⟨hG, ih _ hnext⟩

/-- Other tasks go on until the call is performed. -/
theorem sat_issue {c : C} {f : A c → Program C A E β} {Q : β → List (Step K F) → Prop}
    (h : ∀ now fate, pre <+: now → I now →
      (run task perform world now).issued (.advance self fate : Step K F) = some (c, fate) →
        G now self c fate ∧ ∀ answer, answer = (perform c fate (run task perform world now).world).2 →
          Sat task perform world I G self Q (f answer) (now ++ [.advance self fate])) :
    Sat task perform world I G self Q (issue c >>= f) pre := by
  intro now fate hnow hI hissued
  obtain ⟨hG, hnext⟩ := h now fate hnow hI hissued
  exact ⟨hG, hnext _ rfl⟩

theorem Sat.imp {p : Program C A E α} {Q' : α → List (Step K F) → Prop}
    (h : Sat task perform world I G self Q p pre) (hQ : ∀ a now, Q a now → Q' a now) :
    Sat task perform world I G self Q' p pre := by
  induction p generalizing pre with
  | done result =>
      cases result with
      | ok a => exact hQ a pre h
      | error e => exact trivial
  | call c next ih =>
      intro now fate hnow hI hissued
      obtain ⟨hG, hnext⟩ := h now fate hnow hI hissued
      exact ⟨hG, ih _ hnext⟩

/-- Other tasks may go on first. -/
theorem Sat.later {p : Program C A E α} (h : Sat task perform world I G self Q p pre)
    (hQ : ∀ a now now', now <+: now' → Q a now → Q a now') {now : List (Step K F)}
    (hnow : pre <+: now) : Sat task perform world I G self Q p now := by
  cases p with
  | done result =>
      cases result with
      | ok a => exact hQ a pre now hnow h
      | error e => exact trivial
  | call c next => exact fun now' fate hnow' => h now' fate (hnow.trans hnow')

/-- Programs whose calls meet the guarantee in any case. -/
theorem sat_of_every {P : C → Prop} {p : Program C A E α} (h : p.Every P fun _ => True)
    (hP : ∀ c now fate, P c → G now self c fate) (hQ : ∀ a now, Q a now) :
    Sat task perform world I G self Q p pre := by
  induction p generalizing pre with
  | done result =>
      cases result with
      | ok a => exact hQ a pre
      | error e => exact trivial
  | call c next ih => exact fun now fate _ _ _ => ⟨hP c now fate h.1, ih _ (h.2 _)⟩

/-- Calls that meet the guarantee keep the invariant, and the steps without a call do. -/
structure Keeps (task : K → Program C A E Unit) (perform : (c : C) → F → σ → σ × A c) (world : σ)
    (I : List (Step K F) → Prop) (G : List (Step K F) → Nat → C → F → Prop) : Prop where
  start : I []
  idle : ∀ pre s, I pre → (run task perform world pre).issued s = none → I (pre ++ [s])
  call : ∀ pre i fate c, I pre →
    (run task perform world pre).issued (.advance i fate : Step K F) = some (c, fate) →
      G pre i c fate → I (pre ++ [.advance i fate])

theorem issued_advance {pool : Pool σ C A E} {s : Step K F} {c : C} {fate : F}
    (h : pool.issued s = some (c, fate)) :
    ∃ i next, s = .advance i fate ∧ pool.tasks[i]? = some (.call c next) := by
  cases s with
  | start command => cases h
  | drop i => cases h
  | advance i fate' =>
      unfold issued at h
      dsimp only at h
      split at h
      · next next htask =>
          cases h
          exact ⟨i, next, rfl, htask⟩
      · cases h

/-- Tasks keep their places. -/
theorem getElem?_step {pool : Pool σ C A E} {s : Step K F} {i : Nat} {p : Program C A E Unit}
    (h : (step task perform pool s).tasks[i]? = some p) :
    pool.tasks[i]? = some p ∨ p = done (.ok ()) ∨
      (∃ command, s = .start command ∧ i = pool.tasks.length ∧ p = task command) ∨
      ∃ fate c next, s = .advance i fate ∧ pool.tasks[i]? = some (.call c next) ∧
        p = next (perform c fate pool.world).2 := by
  cases s with
  | start command =>
      change (pool.tasks ++ [task command])[i]? = some p at h
      rw [List.getElem?_append] at h
      split at h
      · exact .inl h
      · next hge =>
          rw [List.getElem?_singleton] at h
          obtain ⟨hzero, heq⟩ := Option.ite_none_right_eq_some.mp h
          exact .inr (.inr (.inl ⟨command, rfl, by omega, (Option.some.inj heq).symm⟩))
  | drop j =>
      change (pool.tasks.set j _)[i]? = some p at h
      rw [List.getElem?_set] at h
      split at h
      · split at h
        · exact .inr (.inl (Option.some.inj h).symm)
        · cases h
      · exact .inl h
  | advance j fate =>
      unfold step at h
      dsimp only at h
      split at h
      · next c next hcall =>
          dsimp only at h
          rw [List.getElem?_set] at h
          split at h
          · next hij =>
              subst hij
              split at h
              · exact .inr (.inr (.inr ⟨fate, c, next, rfl, hcall, (Option.some.inj h).symm⟩))
              · cases h
          · exact .inl h
      · exact .inl h

theorem sat_run (hkeeps : Keeps task perform world I G)
    (htask : ∀ command i pre, (commands pre)[i]? = some command →
      Sat task perform world I G i (fun _ _ => True) (task command) pre)
    (steps : List (Step K F)) :
    I steps ∧ ∀ i p, (run task perform world steps).tasks[i]? = some p →
      Sat task perform world I G i (fun _ _ => True) p steps := by
  induction steps using List.reverseRecOn with
  | nil => exact ⟨hkeeps.start, fun i p hp => by cases hp⟩
  | append_singleton steps s ih =>
      obtain ⟨hI, hsat⟩ := ih
      have hcalls {i : Nat} {fate : F} {c : C} {next : A c → Program C A E Unit}
          (hs : s = .advance i fate)
          (hcall : (run task perform world steps).tasks[i]? = some (.call c next)) :
          (run task perform world steps).issued s = some (c, fate) ∧ G steps i c fate ∧
            Sat task perform world I G i (fun _ _ => True)
              (next (perform c fate (run task perform world steps).world).2) (steps ++ [s]) := by
        subst hs
        have hissued : (run task perform world steps).issued (.advance i fate : Step K F) =
            some (c, fate) := by
          unfold issued
          dsimp only
          rw [hcall]
        exact ⟨hissued, hsat i _ hcall steps fate (List.prefix_refl _) hI hissued⟩
      refine ⟨?_, fun i p hp => ?_⟩
      · cases hissued : (run task perform world steps).issued s with
        | none => exact hkeeps.idle steps s hI hissued
        | some call =>
            obtain ⟨c, fate⟩ := call
            obtain ⟨i, next, hs, hcall⟩ := issued_advance hissued
            obtain ⟨hissued', hG, -⟩ := hcalls hs hcall
            subst hs
            exact hkeeps.call steps i fate c hI hissued' hG
      · rw [run_concat] at hp
        rcases getElem?_step hp with hold | rfl | ⟨command, rfl, rfl, rfl⟩ | ⟨fate, c, next, hs, hcall, rfl⟩
        · exact (hsat i p hold).later (fun _ _ _ _ h => h) (List.prefix_append steps [s])
        · exact trivial
        · apply htask command
          rw [length_tasks, commands, List.filterMap_append]
          exact List.getElem?_concat_length
        · exact (hcalls hs hcall).2.2

/-- The calls of a run meet the guarantee. A task may rely on its command. -/
theorem guarantee_of_command (hkeeps : Keeps task perform world I G)
    (htask : ∀ command i pre, (commands pre)[i]? = some command →
      Sat task perform world I G i (fun _ _ => True) (task command) pre)
    {steps : List (Step K F)} {i : Nat} {c : C} {fate : F}
    (h : (run task perform world steps).issued (.advance i fate : Step K F) = some (c, fate)) :
    G steps i c fate := by
  obtain ⟨hI, hsat⟩ := sat_run hkeeps htask steps
  obtain ⟨j, next, hs, hcall⟩ := issued_advance h
  cases hs
  exact (hsat i _ hcall steps fate (List.prefix_refl _) hI h).1

theorem guarantee (hkeeps : Keeps task perform world I G)
    (htask : ∀ command i pre, Sat task perform world I G i (fun _ _ => True) (task command) pre)
    {steps : List (Step K F)} {i : Nat} {c : C} {fate : F}
    (h : (run task perform world steps).issued (.advance i fate : Step K F) = some (c, fate)) :
    G steps i c fate :=
  guarantee_of_command hkeeps (fun command i pre _ => htask command i pre) h

/-! ## Calls of the past -/

section History

variable (task perform world)

/-- The task `i` performed the call when the run had got to `past`. -/
structure Performed (now past : List (Step K F)) (i : Nat) (c : C) (fate : F) : Prop where
  before : past ++ [.advance i fate] <+: now
  issued : (run task perform world past).issued (.advance i fate : Step K F) = some (c, fate)

/-- The calls of a run, with the steps before them, the tasks and the fates. -/
def calls (now : List (Step K F)) : List (List (Step K F) × Nat × C × F) :=
  (List.range now.length).filterMap fun n =>
    match now[n]? with
    | some (Step.advance i fate) =>
      ((run task perform world (now.take n)).issued (.advance i fate : Step K F)).map fun call =>
        (now.take n, i, call.1, call.2)
    | _ => none

end History

section Performed

variable {now past past' : List (Step K F)} {i i' : Nat} {c c' : C} {fate fate' : F}

theorem performed_now
    (h : (run task perform world past).issued (.advance i fate : Step K F) = some (c, fate)) :
    Performed task perform world (past ++ [.advance i fate]) past i c fate :=
  ⟨List.prefix_refl _, h⟩

theorem Performed.later {now' : List (Step K F)} (h : Performed task perform world now past i c fate)
    (hnow : now <+: now') : Performed task perform world now' past i c fate :=
  ⟨h.before.trans hnow, h.issued⟩

theorem Performed.length_lt (h : Performed task perform world now past i c fate) :
    past.length < now.length := by
  have hlength := h.before.length_le
  rw [List.length_append] at hlength
  exact hlength

/-- Of two calls of a run, one is performed before the other, or they are one call. -/
theorem Performed.order (h : Performed task perform world now past i c fate)
    (h' : Performed task perform world now past' i' c' fate') :
    Performed task perform world past' past i c fate ∨
      Performed task perform world past past' i' c' fate' ∨
      past = past' ∧ i = i' ∧ c = c' ∧ fate = fate' := by
  obtain ⟨hbefore, hissued⟩ := h
  obtain ⟨hbefore', hissued'⟩ := h'
  have hpast : past <+: now := (List.prefix_append _ _).trans hbefore
  have hpast' : past' <+: now := (List.prefix_append _ _).trans hbefore'
  rcases Nat.lt_trichotomy past.length past'.length with hlt | heq | hlt
  · refine .inl ⟨List.prefix_of_prefix_length_le hbefore hpast' ?_, hissued⟩
    rw [List.length_append]
    exact hlt
  · obtain rfl := (List.prefix_of_prefix_length_le hpast hpast' (Nat.le_of_eq heq)).eq_of_length heq
    have hsteps := (List.prefix_of_prefix_length_le hbefore hbefore' (by simp)).eq_of_length (by simp)
    obtain ⟨rfl, rfl⟩ : i = i' ∧ fate = fate' := by simpa using hsteps
    rw [hissued] at hissued'
    cases hissued'
    exact .inr (.inr ⟨rfl, rfl, rfl, rfl⟩)
  · refine .inr (.inl ⟨List.prefix_of_prefix_length_le hbefore' hpast ?_, hissued'⟩)
    rw [List.length_append]
    exact hlt

theorem mem_calls :
    (past, i, c, fate) ∈ calls task perform world now ↔ Performed task perform world now past i c fate := by
  unfold calls
  rw [List.mem_filterMap]
  constructor
  · rintro ⟨n, -, hn⟩
    split at hn
    · next j fate' hget =>
        obtain ⟨call, hissued, heq⟩ := Option.map_eq_some_iff.mp hn
        cases heq
        have hfate : fate' = call.2 := by
          unfold issued at hissued
          dsimp only at hissued
          split at hissued
          · cases hissued
            rfl
          · cases hissued
        subst hfate
        refine ⟨?_, hissued⟩
        obtain ⟨hlt, hget⟩ := List.getElem?_eq_some_iff.mp hget
        rw [← hget, List.take_append_getElem hlt]
        exact List.take_prefix _ _
    · cases hn
  · rintro ⟨⟨post, rfl⟩, hissued⟩
    refine ⟨past.length, List.mem_range.mpr (by simp), ?_⟩
    have htake : (past ++ [Step.advance i fate] ++ post).take past.length = past := by simp
    have hget : (past ++ [Step.advance i fate] ++ post)[past.length]? = some (.advance i fate) := by
      simp
    rw [hget, htake]
    dsimp only
    rw [hissued]
    rfl

theorem Performed.same (h : Performed task perform world now past i c fate)
    (h' : Performed task perform world now past i' c' fate') : i = i' ∧ c = c' ∧ fate = fate' := by
  rcases h.order h' with hbefore | hbefore | ⟨-, hsame⟩
  · exact absurd hbefore.length_lt (Nat.lt_irrefl _)
  · exact absurd hbefore.length_lt (Nat.lt_irrefl _)
  · exact hsame

/-- A task goes on from where it is. -/
theorem getElem?_step_of_some {pool : Pool σ C A E} {s : Step K F} {p q : Program C A E Unit}
    (hp : pool.tasks[i]? = some p) (hq : (step task perform pool s).tasks[i]? = some q) :
    q = p ∨ q = done (.ok ()) ∨
      ∃ fate c next, s = .advance i fate ∧ p = .call c next ∧ q = next (perform c fate pool.world).2 := by
  cases s with
  | start command =>
      change (pool.tasks ++ [task command])[i]? = some q at hq
      rw [List.getElem?_append_left (List.getElem?_eq_some_iff.mp hp).1, hp] at hq
      exact .inl (Option.some.inj hq).symm
  | drop j =>
      change (pool.tasks.set j _)[i]? = some q at hq
      rw [List.getElem?_set] at hq
      split at hq
      · split at hq
        · exact .inr (.inl (Option.some.inj hq).symm)
        · cases hq
      · rw [hp] at hq
        exact .inl (Option.some.inj hq).symm
  | advance j fate =>
      unfold step at hq
      dsimp only at hq
      split at hq
      · next c next hcall =>
          dsimp only at hq
          rw [List.getElem?_set] at hq
          split at hq
          · next hij =>
              subst hij
              rw [hp] at hcall
              split at hq
              · exact .inr (.inr ⟨fate, c, next, rfl, Option.some.inj hcall, (Option.some.inj hq).symm⟩)
              · cases hq
          · rw [hp] at hq
            exact .inl (Option.some.inj hq).symm
      · rw [hp] at hq
        exact .inl (Option.some.inj hq).symm

theorem Performed.tasks (h : Performed task perform world now past i c fate) :
    ∃ next, (run task perform world past).tasks[i]? = some (.call c next) := by
  obtain ⟨j, next, hs, hcall⟩ := issued_advance h.issued
  cases hs
  exact ⟨next, hcall⟩

theorem commands_append (steps steps' : List (Step K F)) :
    commands (steps ++ steps') = commands steps ++ commands steps' := List.filterMap_append

/-- Tasks keep their commands. -/
theorem command_later {command : K} (h : (commands past)[i]? = some command) (hnow : past <+: now) :
    (commands now)[i]? = some command := by
  obtain ⟨rest, rfl⟩ := hnow
  rw [commands_append, List.getElem?_append_left (List.getElem?_eq_some_iff.mp h).1, h]

/-- The task was started before. -/
theorem Performed.started (h : Performed task perform world now past i c fate) :
    i < (commands past).length := by
  obtain ⟨next, hcall⟩ := h.tasks
  have hlength := (List.getElem?_eq_some_iff.mp hcall).1
  rwa [length_tasks] at hlength

/-- What the task issues, its command may issue. -/
theorem Performed.of_command {P : K → C → Prop} {command : K}
    (h : Performed task perform world now past i c fate)
    (htask : ∀ command, (task command).Every (P command) fun _ => True)
    (hcommand : (commands now)[i]? = some command) : P command c := by
  obtain ⟨post, rfl⟩ := (List.prefix_append past _).trans h.before
  rw [commands_append, List.getElem?_append_left h.started] at hcommand
  exact issued_of_command htask hcommand h.issued

/-- A task that is started later issues its calls later. -/
theorem Performed.after {mid : List (Step K F)} (h : Performed task perform world now past i c fate)
    (hmid : mid <+: now) (hi : (commands mid).length ≤ i) : mid <+: past := by
  have hpast : past <+: now := (List.prefix_append _ _).trans h.before
  rcases List.prefix_or_prefix_of_prefix hmid hpast with hle | ⟨post, rfl⟩
  · exact hle
  · have hstarted := h.started
    rw [commands_append, List.length_append] at hi
    omega

variable {P : C → Prop} (hP : ∀ command, (task command).Once P)
include hP

theorem once_run (steps : List (Step K F)) {p : Program C A E Unit}
    (hp : (run task perform world steps).tasks[i]? = some p) : p.Once P := by
  induction steps using List.reverseRecOn generalizing p with
  | nil => cases hp
  | append_singleton steps s ih =>
      rw [run_concat] at hp
      rcases getElem?_step hp with hold | rfl | ⟨command, -, -, rfl⟩ | ⟨fate, c, next, -, hcall, rfl⟩
      · exact ih hold
      · exact trivial
      · exact hP command
      · exact (ih hcall).2 _

/-- After its call in `P`, a task issues none. -/
theorem Performed.silent (h : Performed task perform world now past i c fate) (hc : P c) :
    ∃ p, (run task perform world now).tasks[i]? = some p ∧ p.Every (fun c => ¬P c) fun _ => True := by
  obtain ⟨post, rfl⟩ := h.before
  induction post using List.reverseRecOn with
  | nil =>
      obtain ⟨next, hcall⟩ := h.tasks
      have honce : (Program.call c next).Once P := once_run hP past hcall
      refine ⟨next (perform c fate (run task perform world past).world).2, ?_, honce.1 hc _⟩
      rw [List.append_nil, run_concat]
      unfold step
      dsimp only
      rw [hcall]
      exact List.getElem?_set_self (List.getElem?_eq_some_iff.mp hcall).1
  | append_singleton post s ih =>
      obtain ⟨p, hp, hevery⟩ := ih ⟨List.prefix_append _ _, h.issued⟩
      rw [← List.append_assoc, run_concat]
      have hlength : i < (step task perform (run task perform world
          (past ++ [.advance i fate] ++ post)) s).tasks.length := by
        rw [length_step]
        exact Nat.lt_add_right _ (List.getElem?_eq_some_iff.mp hp).1
      refine ⟨_, List.getElem?_eq_getElem hlength, ?_⟩
      rcases getElem?_step_of_some hp (List.getElem?_eq_getElem hlength) with
        heq | heq | ⟨fate', c', next, -, rfl, heq⟩
      · rwa [heq]
      · rw [heq]
        exact trivial
      · rw [heq]
        exact hevery.2 _

/-- A task has at most one call in `P`. -/
theorem performed_once (h : Performed task perform world now past i c fate) (hc : P c)
    (h' : Performed task perform world now past' i c' fate') (hc' : P c') :
    past = past' ∧ c = c' ∧ fate = fate' := by
  have hnever {past past' : List (Step K F)} {c c' : C} {fate fate' : F}
      (h : Performed task perform world past' past i c fate) (hc : P c)
      (h' : Performed task perform world now past' i c' fate') (hc' : P c') : False := by
    obtain ⟨p, hp, hevery⟩ := h.silent hP hc
    obtain ⟨next, hcall⟩ := h'.tasks
    obtain rfl := Option.some.inj (hp.symm.trans hcall)
    exact hevery.1 hc'
  rcases h.order h' with hbefore | hbefore | ⟨hpast, -, hsame⟩
  · exact (hnever hbefore hc h' hc').elim
  · exact (hnever hbefore hc' h hc).elim
  · exact ⟨hpast, hsame⟩

end Performed

end Pool
