import ModbusLogger.Lib.Families
import ModbusLogger.Lib.RelyGuarantee

/-!
# One family of a pool

A family sees a part of the world. If the other families leave this part alone, then a run of the pool
is a run of the family by itself: the steps of the others are left out, and the tasks count from zero
again. So what holds in all runs of the family holds in the pool.
-/

namespace Families

open Program Pool

variable {ι σ τ E : Type} [DecidableEq ι] {K C F : ι → Type} {A : (k : ι) → C k → Type} (k : ι)

/-! ## The steps of the family -/

/-- The command, if it is one of the family. -/
def own? (command : (k : ι) × K k) : Option (K k) :=
  if h : command.1 = k then some (h ▸ command.2) else none

@[simp] theorem own?_self {x : K k} : own? k ⟨k, x⟩ = some x := dif_pos rfl

theorem own?_of_ne {k' : ι} {x : K k'} (h : k' ≠ k) : own? k ⟨k', x⟩ = none := dif_neg h

theorem own?_eq_some {command : (k : ι) × K k} {x : K k} :
    own? k command = some x ↔ command = ⟨k, x⟩ := by
  constructor
  · intro h
    obtain ⟨k', y⟩ := command
    by_cases hk : k' = k
    · subst hk
      rw [own?_self] at h
      rw [Option.some.inj h]
    · rw [own?_of_ne k hk] at h
      cases h
  · rintro rfl
    exact own?_self k

/-- The number of a task among those of the family. -/
def place (before : List ((k : ι) × K k)) (i : Nat) : Nat :=
  ((before.take i).filterMap (own? k)).length

/-- What a step is for the family, after these commands. -/
def ownStep (before : List ((k : ι) × K k)) : Step K F → Option (Pool.Step (K k) (F k))
  | .start command => (own? k command).map .start
  | .advance i fate =>
    (before[i]?.bind (own? k)).map fun _ => .advance (place k before i) (fate k)
  | .drop i => (before[i]?.bind (own? k)).map fun _ => .drop (place k before i)

def ownStepsFrom (before : List ((k : ι) × K k)) : List (Step K F) → List (Pool.Step (K k) (F k))
  | [] => []
  | s :: steps => (ownStep k before s).toList ++ ownStepsFrom (before ++ commands [s]) steps

def ownSteps (steps : List (Step K F)) : List (Pool.Step (K k) (F k)) := ownStepsFrom k [] steps

theorem ownStepsFrom_append (before : List ((k : ι) × K k)) (steps steps' : List (Step K F)) :
    ownStepsFrom k before (steps ++ steps') =
      ownStepsFrom k before steps ++ ownStepsFrom k (before ++ commands steps) steps' := by
  induction steps generalizing before with
  | nil =>
      show _ = ownStepsFrom k (before ++ []) steps'
      rw [List.append_nil]
      rfl
  | cons s steps ih =>
      have hcommands : commands (s :: steps) = commands [s] ++ commands steps :=
        commands_append [s] steps
      rw [List.cons_append, ownStepsFrom, ownStepsFrom, ih, hcommands, List.append_assoc,
        List.append_assoc]

theorem ownSteps_concat (steps : List (Step K F)) (s : Step K F) :
    ownSteps k (steps ++ [s]) = ownSteps k steps ++ (ownStep k (commands steps) s).toList := by
  unfold ownSteps
  rw [ownStepsFrom_append, List.nil_append, ownStepsFrom, ownStepsFrom, List.append_nil]

theorem commands_ownSteps (steps : List (Step K F)) :
    commands (ownSteps k steps) = (commands steps).filterMap (own? k) := by
  induction steps using List.reverseRecOn with
  | nil => rfl
  | append_singleton steps s ih =>
      rw [ownSteps_concat, commands_append, commands_append, List.filterMap_append, ih]
      congr 1
      cases s with
      | start command =>
          show commands ((own? k command).map Step.start).toList = [command].filterMap (own? k)
          cases hown : own? k command with
          | none => simp [hown, commands]
          | some x => simp [hown, commands]
      | advance i fate =>
          show commands (Option.map _ ((commands steps)[i]?.bind (own? k))).toList = []
          cases (commands steps)[i]?.bind (own? k) <;> rfl
      | drop i =>
          show commands (Option.map _ ((commands steps)[i]?.bind (own? k))).toList = []
          cases (commands steps)[i]?.bind (own? k) <;> rfl

/-- A step of the family in its own run is a step of the pool. -/
theorem exists_step_of_own {past : List (Pool.Step (K k) (F k))} {j : Nat} {fate : F k}
    {steps : List (Step K F)} (h : past ++ [.advance j fate] <+: ownSteps k steps) :
    ∃ before i fates x, before ++ [.advance i fates] <+: steps ∧ ownSteps k before = past ∧
      (commands before)[i]? = some ⟨k, x⟩ ∧ place k (commands before) i = j ∧ fates k = fate := by
  induction steps using List.reverseRecOn with
  | nil => simp [ownSteps, ownStepsFrom] at h
  | append_singleton steps s ih =>
      have hearlier (h : past ++ [.advance j fate] <+: ownSteps k steps) :
          ∃ before i fates x, before ++ [.advance i fates] <+: steps ++ [s] ∧
            ownSteps k before = past ∧ (commands before)[i]? = some ⟨k, x⟩ ∧
            place k (commands before) i = j ∧ fates k = fate := by
        obtain ⟨before, i, fates, x, hbefore, hrest⟩ := ih h
        exact ⟨before, i, fates, x, hbefore.trans (List.prefix_append _ _), hrest⟩
      rw [ownSteps_concat] at h
      cases hown : ownStep k (commands steps) s with
      | none =>
          rw [hown, Option.toList_none, List.append_nil] at h
          exact hearlier h
      | some s' =>
          rw [hown, Option.toList_some, List.prefix_concat_iff] at h
          rcases h with hlast | hpast
          · obtain ⟨rfl, rfl⟩ : past = ownSteps k steps ∧ Step.advance j fate = s' := by
              simpa using hlast
            cases s with
            | start command =>
                obtain ⟨x, -, hstep⟩ := Option.map_eq_some_iff.mp hown
                cases hstep
            | drop i =>
                obtain ⟨x, -, hstep⟩ := Option.map_eq_some_iff.mp hown
                cases hstep
            | advance i fates =>
                obtain ⟨x, hx, hstep⟩ := Option.map_eq_some_iff.mp hown
                obtain ⟨command, hcommand, hcommand'⟩ := Option.bind_eq_some_iff.mp hx
                obtain rfl := (own?_eq_some k).mp hcommand'
                cases hstep
                exact ⟨steps, i, fates, x, List.prefix_refl _, rfl, hcommand, rfl, rfl⟩
          · exact hearlier hpast

/-! ## Places -/

variable {before : List ((k : ι) × K k)} {i j : Nat} {x y : K k}

theorem place_lt (hi : before[i]? = some ⟨k, x⟩) (hij : i < j) : place k before i < place k before j := by
  have htake : before.take (i + 1) <+: before.take j := List.take_prefix_take_left hij
  have hlast : before.take (i + 1) = before.take i ++ [⟨k, x⟩] := by
    rw [List.take_add_one, hi, Option.toList_some]
  have hlength := (List.IsPrefix.filterMap (own? k) htake).length_le
  rw [hlast, List.filterMap_append, List.length_append,
    List.filterMap_cons_some (own?_self k)] at hlength
  exact hlength

theorem place_ne (hi : before[i]? = some ⟨k, x⟩) (hj : before[j]? = some ⟨k, y⟩) (hij : i ≠ j) :
    place k before i ≠ place k before j := by
  rcases Nat.lt_or_gt_of_ne hij with hlt | hlt
  · exact Nat.ne_of_lt (place_lt k hi hlt)
  · exact Nat.ne_of_gt (place_lt k hj hlt)

theorem getElem?_place (hi : before[i]? = some ⟨k, x⟩) :
    (before.filterMap (own? k))[place k before i]? = some x := by
  obtain ⟨hlt, hget⟩ := List.getElem?_eq_some_iff.mp hi
  have hsplit : before = before.take i ++ ⟨k, x⟩ :: before.drop (i + 1) := by
    rw [← hget, List.getElem_cons_drop, List.take_append_drop]
  have hown : before.filterMap (own? k) =
      (before.take i).filterMap (own? k) ++ x :: (before.drop (i + 1)).filterMap (own? k) := by
    conv_lhs => rw [hsplit]
    rw [List.filterMap_append, List.filterMap_cons_some (own?_self k)]
  rw [hown]
  unfold place
  rw [List.getElem?_append_right (Nat.le_refl _), Nat.sub_self]
  rfl

theorem place_append (hi : i ≤ before.length) (more : List ((k : ι) × K k)) :
    place k (before ++ more) i = place k before i := by
  unfold place
  rw [List.take_append_of_le_length hi]

/-! ## The run of the family -/

variable {tasks : (k : ι) → K k → Program (C k) (A k) E Unit}
  {performs : (k : ι) → (c : C k) → F k → σ → σ × A k c} {view : σ → τ}
  {alone : (c : C k) → F k → τ → τ × A k c}

/-- The family works on what it sees, and the others leave it alone. -/
structure Separate (performs : (k : ι) → (c : C k) → F k → σ → σ × A k c) (view : σ → τ)
    (alone : (c : C k) → F k → τ → τ × A k c) : Prop where
  own : ∀ c fate w, alone c fate (view w) = (view (performs k c fate w).1, (performs k c fate w).2)
  others : ∀ k' c fate w, k' ≠ k → view (performs k' c fate w).1 = view w

/-- The pool, and the family by itself. -/
structure Alike (view : σ → τ) (before : List ((k : ι) × K k))
    (whole : Pool σ (Calls C) (Answers A) E) (part : Pool τ (C k) (A k) E) : Prop where
  world : part.world = view whole.world
  length : whole.tasks.length = before.length
  partLength : part.tasks.length = (before.filterMap (own? k)).length
  own : ∀ i x, before[i]? = some ⟨k, x⟩ →
    ∃ p, whole.tasks[i]? = some (lift k p) ∧ part.tasks[place k before i]? = some p
  lifted : ∀ (i : Nat) (command : (k : ι) × K k), before[i]? = some command →
    ∃ p, whole.tasks[i]? = some (lift command.1 p)

variable {k} {whole : Pool σ (Calls C) (Answers A) E} {part : Pool τ (C k) (A k) E}

theorem Alike.setOwn (h : Alike k view before whole part) (hi : before[i]? = some ⟨k, x⟩) (w : σ)
    (q : Program (C k) (A k) E Unit) :
    Alike k view before ⟨w, whole.tasks.set i (lift k q)⟩
      ⟨view w, part.tasks.set (place k before i) q⟩ := by
  have hlt : i < whole.tasks.length := h.length ▸ (List.getElem?_eq_some_iff.mp hi).1
  refine ⟨rfl, List.length_set.trans h.length, List.length_set.trans h.partLength, ?_, ?_⟩
  · intro j y hj
    obtain ⟨p, hwhole, hpart⟩ := h.own j y hj
    by_cases hij : i = j
    · subst hij
      refine ⟨q, List.getElem?_set_self hlt, List.getElem?_set_self ?_⟩
      exact (List.getElem?_eq_some_iff.mp hpart).1
    · refine ⟨p, ?_, ?_⟩
      · rwa [List.getElem?_set_ne hij]
      · rwa [List.getElem?_set_ne (place_ne k hi hj hij)]
  · intro j command hj
    obtain ⟨p, hwhole⟩ := h.lifted j command hj
    by_cases hij : i = j
    · subst hij
      obtain rfl := Option.some.inj (hi.symm.trans hj)
      exact ⟨q, List.getElem?_set_self hlt⟩
    · exact ⟨p, by rwa [List.getElem?_set_ne hij]⟩

theorem Alike.setOther (h : Alike k view before whole part) {k' : ι} {x : K k'}
    (hi : before[i]? = some ⟨k', x⟩) (hk : k' ≠ k) {w : σ} (hw : view w = view whole.world)
    (q : Program (C k') (A k') E Unit) :
    Alike k view before ⟨w, whole.tasks.set i (lift k' q)⟩ part := by
  have hlt : i < whole.tasks.length := h.length ▸ (List.getElem?_eq_some_iff.mp hi).1
  refine ⟨h.world.trans hw.symm, List.length_set.trans h.length, h.partLength, ?_, ?_⟩
  · intro j y hj
    obtain ⟨p, hwhole, hpart⟩ := h.own j y hj
    have hij : i ≠ j := by
      rintro rfl
      cases hi.symm.trans hj
      exact hk rfl
    exact ⟨p, by rwa [List.getElem?_set_ne hij], hpart⟩
  · intro j command hj
    obtain ⟨p, hwhole⟩ := h.lifted j command hj
    by_cases hij : i = j
    · subst hij
      obtain rfl := Option.some.inj (hi.symm.trans hj)
      exact ⟨q, List.getElem?_set_self hlt⟩
    · exact ⟨p, by rwa [List.getElem?_set_ne hij]⟩

theorem Alike.lifted_append (h : Alike k view before whole part) (command : (k : ι) × K k) (i : Nat)
    (command' : (k : ι) × K k) (hi : (before ++ [command])[i]? = some command') :
    ∃ p, (whole.tasks ++ [task tasks command])[i]? = some (lift command'.1 p) := by
  rcases Nat.lt_or_ge i before.length with hlt | hge
  · rw [List.getElem?_append_left hlt] at hi
    rw [List.getElem?_append_left (h.length ▸ hlt)]
    exact h.lifted i command' hi
  · rw [List.getElem?_append_right hge] at hi
    rw [List.getElem?_append_right (h.length ▸ hge), h.length]
    rw [List.getElem?_singleton] at hi ⊢
    obtain ⟨hzero, heq⟩ := Option.ite_none_right_eq_some.mp hi
    obtain rfl := Option.some.inj heq
    exact ⟨_, if_pos hzero⟩

theorem Alike.startOwn (h : Alike k view before whole part) (x : K k) :
    Alike k view (before ++ [⟨k, x⟩]) ⟨whole.world, whole.tasks ++ [lift k (tasks k x)]⟩
      ⟨part.world, part.tasks ++ [tasks k x]⟩ := by
  refine ⟨h.world, ?_, ?_, ?_, h.lifted_append _⟩
  · rw [List.length_append, List.length_append, h.length]
    rfl
  · rw [List.length_append, List.filterMap_append, List.length_append, h.partLength]
    simp
  · intro j y hj
    rcases Nat.lt_or_ge j before.length with hlt | hge
    · rw [List.getElem?_append_left hlt] at hj
      obtain ⟨p, hwhole, hpart⟩ := h.own j y hj
      rw [place_append k (Nat.le_of_lt hlt), List.getElem?_append_left (h.length ▸ hlt),
        List.getElem?_append_left (List.getElem?_eq_some_iff.mp hpart).1]
      exact ⟨p, hwhole, hpart⟩
    · obtain rfl : j = before.length := by
        have hlast := (List.getElem?_eq_some_iff.mp hj).1
        rw [List.length_append, List.length_singleton] at hlast
        omega
      rw [List.getElem?_concat_length] at hj
      cases hj
      have hplace : place k (before ++ [⟨k, x⟩]) before.length = part.tasks.length := by
        rw [place_append k (Nat.le_refl _), h.partLength]
        unfold place
        rw [List.take_length]
      rw [hplace, ← h.length, List.getElem?_concat_length, List.getElem?_concat_length]
      exact ⟨_, rfl, rfl⟩

theorem Alike.startOther (h : Alike k view before whole part) {k' : ι} (hk : k' ≠ k) (x : K k') :
    Alike k view (before ++ [⟨k', x⟩]) ⟨whole.world, whole.tasks ++ [lift k' (tasks k' x)]⟩ part := by
  have hnot : own? k ⟨k', x⟩ = none := own?_of_ne k hk
  refine ⟨h.world, ?_, ?_, ?_, h.lifted_append _⟩
  · rw [List.length_append, List.length_append, h.length]
    rfl
  · rw [List.filterMap_append, List.filterMap_cons_none hnot, List.filterMap_nil, List.append_nil]
    exact h.partLength
  · intro j y hj
    have hlt : j < before.length := by
      by_contra hge
      rw [List.getElem?_append_right (Nat.le_of_not_lt hge)] at hj
      rw [List.getElem?_singleton] at hj
      obtain ⟨-, heq⟩ := Option.ite_none_right_eq_some.mp hj
      cases heq
      exact hk rfl
    rw [List.getElem?_append_left hlt] at hj
    rw [place_append k (Nat.le_of_lt hlt), List.getElem?_append_left (h.length ▸ hlt)]
    exact h.own j y hj

/-- One step of the pool is a step of the family or none. -/
theorem Alike.step (hseparate : Separate k performs view alone) (h : Alike k view before whole part)
    (s : Step K F) : Alike k view (before ++ commands [s])
      (Pool.step (task tasks) (perform performs) whole s)
      ((ownStep k before s).elim part (Pool.step (tasks k) alone part)) := by
  cases s with
  | start command =>
      obtain ⟨k', x⟩ := command
      by_cases hk : k' = k
      · subst hk
        have hown : ownStep k' before (.start ⟨k', x⟩ : Step K F) = some (.start x) := by
          simp [ownStep]
        rw [hown]
        exact h.startOwn x
      · have hown : ownStep k before (.start ⟨k', x⟩ : Step K F) = none := by
          simp [ownStep, own?_of_ne k hk]
        rw [hown]
        exact h.startOther hk x
  | advance i fate =>
      show Alike k view (before ++ []) _ _
      rw [List.append_nil]
      cases hi : before[i]? with
      | none =>
          have hown : ownStep k before (.advance i fate : Step K F) = none := by simp [ownStep, hi]
          have hnone : whole.tasks[i]? = none := by
            rw [List.getElem?_eq_none_iff, h.length]
            exact List.getElem?_eq_none_iff.mp hi
          rw [hown]
          unfold Pool.step
          dsimp only
          rw [hnone]
          exact h
      | some command =>
          obtain ⟨k', x⟩ := command
          by_cases hk : k' = k
          · subst hk
            have hown : ownStep k' before (.advance i fate : Step K F) =
                some (.advance (place k' before i) (fate k')) := by simp [ownStep, hi]
            obtain ⟨p, hwhole, hpart⟩ := h.own i x hi
            rw [hown]
            show Alike _ _ _ _ (Pool.step (tasks k') alone part (.advance _ _))
            unfold Pool.step
            dsimp only
            rw [hwhole, hpart]
            cases p with
            | done result => exact h
            | call c next =>
                have hcall := hseparate.own c (fate k') whole.world
                rw [← h.world] at hcall
                dsimp only [lift]
                rw [hcall]
                exact h.setOwn hi _ _
          · have hown : ownStep k before (.advance i fate : Step K F) = none := by
              simp [ownStep, hi, own?_of_ne k hk]
            obtain ⟨p, hwhole⟩ := h.lifted i ⟨k', x⟩ hi
            rw [hown]
            unfold Pool.step
            dsimp only
            rw [hwhole]
            cases p with
            | done result => exact h
            | call c next => exact h.setOther hi hk (hseparate.others k' c (fate k') whole.world hk) _
  | drop i =>
      show Alike k view (before ++ []) _ _
      rw [List.append_nil]
      cases hi : before[i]? with
      | none =>
          have hown : ownStep k before (.drop i : Step K F) = none := by simp [ownStep, hi]
          have hset : whole.tasks.set i (done (.ok ())) = whole.tasks := by
            apply List.set_eq_of_length_le
            rw [h.length]
            exact List.getElem?_eq_none_iff.mp hi
          rw [hown]
          unfold Pool.step
          dsimp only
          rw [hset]
          exact h
      | some command =>
          obtain ⟨k', x⟩ := command
          by_cases hk : k' = k
          · subst hk
            have hown : ownStep k' before (.drop i : Step K F) = some (.drop (place k' before i)) := by
              simp [ownStep, hi]
            have hset := h.setOwn hi whole.world (done (.ok ()))
            rw [← h.world] at hset
            rw [hown]
            exact hset
          · have hown : ownStep k before (.drop i : Step K F) = none := by
              simp [ownStep, hi, own?_of_ne k hk]
            rw [hown]
            exact h.setOther hi hk rfl (done (.ok ()))

/-- **The family by itself.** -/
theorem alike_run (hseparate : Separate k performs view alone) (world : σ) (steps : List (Step K F)) :
    Alike k view (commands steps) (run tasks performs world steps)
      (Pool.run (tasks k) alone (view world) (ownSteps k steps)) := by
  induction steps using List.reverseRecOn with
  | nil => exact ⟨rfl, rfl, rfl, nofun, nofun⟩
  | append_singleton steps s ih =>
      have hstep : Alike k view _ (Pool.step (task tasks) (perform performs) _ s) _ :=
        ih.step hseparate s
      rw [commands_append, run, Pool.run_concat, ownSteps_concat]
      cases hown : ownStep k (commands steps) s with
      | none =>
          rw [hown] at hstep
          rw [Option.toList_none, List.append_nil]
          exact hstep
      | some s' =>
          rw [hown] at hstep
          rw [Option.toList_some, Pool.run_concat]
          exact hstep

/-- The family issues its calls in its own run. -/
theorem issued_own (hseparate : Separate k performs view alone) {world : σ} {steps : List (Step K F)}
    {fate : Fates F} {c : C k}
    (h : (run tasks performs world steps).issued (.advance i fate : Step K F) = some (⟨k, c⟩, fate)) :
    (Pool.run (tasks k) alone (view world) (ownSteps k steps)).issued
      (.advance (place k (commands steps) i) (fate k) : Pool.Step (K k) (F k)) = some (c, fate k) := by
  have halike : Alike k view (commands steps) (run tasks performs world steps) _ :=
    alike_run hseparate world steps
  obtain ⟨j, next, hs, hcall⟩ := issued_advance h
  cases hs
  have hlt : i < (commands steps).length := halike.length ▸ (List.getElem?_eq_some_iff.mp hcall).1
  obtain ⟨⟨k', x⟩, hcommand⟩ : ∃ command, (commands steps)[i]? = some command :=
    ⟨_, List.getElem?_eq_getElem hlt⟩
  obtain ⟨p, hp⟩ := halike.lifted i _ hcommand
  have hlift : lift k' p = .call ⟨k, c⟩ next := Option.some.inj (hp.symm.trans hcall)
  cases p with
  | done result => cases hlift
  | call c' next' =>
      obtain ⟨hc, -⟩ := Program.call.inj hlift
      cases hc
      obtain ⟨q, hwhole, hpart⟩ := halike.own i x hcommand
      cases q with
      | done result => cases hwhole.symm.trans hcall
      | call c'' next'' =>
          obtain ⟨hc, -⟩ := Program.call.inj (Option.some.inj (hwhole.symm.trans hcall))
          cases hc
          unfold issued
          dsimp only
          rw [hpart]

end Families
