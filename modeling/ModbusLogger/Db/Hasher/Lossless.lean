import ModbusLogger.Db.Hasher.HashMaster

/-!
# Deduplication loses nothing

What `write_measure` saves of one value is enough to draw the value again: every change and every
edge of an outage is there, in order and once. The invariant is that the last good sample is known
(`Holds`): it is saved already, or it is newer than everything saved and waits in the slot.
-/

namespace ModbusLogger.Hasher

open Reader Transducer

/-! ## What is to be saved -/

/-- `r` is the sample `v`, up to the choice between data that are equal numbers. -/
def IsRecordOf (r v : HashedValue) : Prop :=
  r.timestamp = v.timestamp ∧ Binary64.Same r.val v.val

/-- `b` is the next good sample after `a`. -/
def Successive (samples : List HashedValue) (a b : HashedValue) : Prop :=
  ∃ before failures after, samples = before ++ a :: failures ++ b :: after ∧
    a.isFailure = false ∧ b.isFailure = false ∧ ∀ f ∈ failures, f.isFailure = true

def newestGood (l : List HashedValue) : Option HashedValue :=
  (l.filter fun v => !v.isFailure).getLast?

/-- What is saved of some samples, as far as it does not depend on the last of them. -/
structure Kept (samples saved : List HashedValue) : Prop where
  increasing : saved.Pairwise fun a b => a.timestamp < b.timestamp
  fed : ∀ r ∈ saved, ∃ v ∈ samples, IsRecordOf r v
  edges : ∀ a b, Successive samples a b →
    (¬(a.val == b.val) = true ∨
      ∃ r ∈ saved, r.isFailure = true ∧ a.timestamp < r.timestamp ∧ r.timestamp < b.timestamp) →
    (∃ r ∈ saved, IsRecordOf r a) ∧ ∃ r ∈ saved, IsRecordOf r b

/-- The saved records stand for the samples. -/
structure Lossless (samples saved : List HashedValue) : Prop extends Kept samples saved where
  newest : ∀ v, samples.getLast? = some v → v.isFailure = false →
    ∃ r, newestGood saved = some r ∧ Binary64.Same r.val v.val

section Newest

theorem newestGood_concat_good {v : HashedValue} (l : List HashedValue) (h : v.isFailure = false) :
    newestGood (l ++ [v]) = some v := by
  simp [newestGood, h]

theorem newestGood_concat_failure {v : HashedValue} (l : List HashedValue)
    (h : v.isFailure = true) : newestGood (l ++ [v]) = newestGood l := by
  simp [newestGood, h]

theorem newestGood_mem {l : List HashedValue} {g : HashedValue} (h : newestGood l = some g) :
    g ∈ l :=
  List.mem_of_mem_filter (List.mem_of_getLast? h)

/-- A new sample ends at most one pair of successive good samples. -/
theorem Successive.of_concat {samples : List HashedValue} {v a b : HashedValue}
    (h : Successive (samples ++ [v]) a b) :
    Successive samples a b ∨ (b = v ∧ newestGood samples = some a) := by
  obtain ⟨before, failures, after, heq, ha, hb, hfail⟩ := h
  rcases List.eq_nil_or_concat' after with rfl | ⟨after, last, rfl⟩
  · obtain ⟨rfl, rfl⟩ : samples = before ++ a :: failures ∧ v = b := by
      simpa using List.append_inj' heq rfl
    refine .inr ⟨rfl, ?_⟩
    have hnone : failures.filter (fun v => !v.isFailure) = [] := by
      rw [List.filter_eq_nil_iff]
      intro f hf
      simp [hfail f hf]
    simp [newestGood, List.filter_append, ha, hnone]
  · refine .inl ⟨before, failures, after, ?_, ha, hb, hfail⟩
    have heq' : samples ++ [v] = (before ++ a :: failures ++ b :: after) ++ [last] := by
      rw [heq]
      simp
    exact (List.append_inj' heq' rfl).1

end Newest

/-! ## One sample -/

/-- A sample that is newer than all others, and the records that it causes. -/
theorem Kept.concat {samples saved : List HashedValue} {v : HashedValue}
    (hk : Kept samples saved) (out : List HashedValue)
    (hsorted : (saved ++ out).Pairwise fun a b => a.timestamp < b.timestamp)
    (hfed : ∀ r ∈ out, ∃ s ∈ samples ++ [v], IsRecordOf r s)
    (hfailure : ∀ r ∈ out, r.isFailure = true → r.timestamp = v.timestamp)
    (hlater : ∀ s ∈ samples, s.timestamp < v.timestamp)
    (hedge : v.isFailure = false → ∀ g, newestGood samples = some g →
      (¬(g.val == v.val) = true ∨ ∃ r ∈ saved, r.isFailure = true ∧ g.timestamp < r.timestamp) →
      (∃ r ∈ saved ++ out, IsRecordOf r g) ∧ ∃ r ∈ saved ++ out, IsRecordOf r v) :
    Kept (samples ++ [v]) (saved ++ out) := by
  -- a failure record between old samples is an old record
  have hold : ∀ r ∈ saved ++ out, r.isFailure = true → r.timestamp < v.timestamp → r ∈ saved := by
    intro r hr hfail hlt
    rcases List.mem_append.mp hr with hr | hr
    · exact hr
    · have := hfailure r hr hfail
      grind
  refine ⟨hsorted, ?_, ?_⟩
  · intro r hr
    rcases List.mem_append.mp hr with hr | hr
    · obtain ⟨s, hs, hrec⟩ := hk.fed r hr
      exact ⟨s, List.mem_append_left _ hs, hrec⟩
    · exact hfed r hr
  · intro a b hab hcause
    rcases hab.of_concat with hab' | ⟨rfl, hlast⟩
    · obtain ⟨⟨r, hr, hra⟩, ⟨r', hr', hrb⟩⟩ := hk.edges a b hab' (by
        rcases hcause with hne | ⟨r, hr, hfail, har, hrb⟩
        · exact .inl hne
        · have hb : b ∈ samples := by
            obtain ⟨before, failures, after, rfl, -⟩ := hab'
            simp
          exact .inr ⟨r, hold r hr hfail (lt_trans hrb (hlater b hb)), hfail, har, hrb⟩)
      exact ⟨⟨r, List.mem_append_left _ hr, hra⟩, ⟨r', List.mem_append_left _ hr', hrb⟩⟩
    · have hb : b.isFailure = false := by
        obtain ⟨-, -, -, -, -, hb, -⟩ := hab
        exact hb
      apply hedge hb a hlast
      rcases hcause with hne | ⟨r, hr, hfail, har, hrb⟩
      · exact .inl hne
      · exact .inr ⟨r, hold r hr hfail hrb, hfail, har⟩

/-- A sample that is saved alone, as it came. -/
theorem Kept.concat_self {samples saved : List HashedValue} {v : HashedValue}
    (hk : Kept samples saved) (hbelow : ∀ r ∈ saved, r.timestamp < v.timestamp)
    (hlater : ∀ s ∈ samples, s.timestamp < v.timestamp)
    (hedge : ∀ g, newestGood samples = some g →
      (¬(g.val == v.val) = true ∨ ∃ r ∈ saved, r.isFailure = true ∧ g.timestamp < r.timestamp) →
      (∃ r ∈ saved ++ [v], IsRecordOf r g) ∧ ∃ r ∈ saved ++ [v], IsRecordOf r v) :
    Kept (samples ++ [v]) (saved ++ [v]) := by
  refine hk.concat [v] ?_ ?_ ?_ hlater fun _ => hedge
  · rw [pairwise_concat]
    exact ⟨hk.increasing, hbelow⟩
  · rw [List.forall_mem_singleton]
    exact ⟨v, List.mem_concat_self, rfl, .refl _⟩
  · rw [List.forall_mem_singleton]
    exact fun _ => rfl

/-- The slot holds the last good sample: it is saved, or waits and is newer than all that is. -/
structure Holds (samples saved : List HashedValue) (slot : HashedValue) (pending : Bool) : Prop where
  good : slot.isFailure = false
  last : ∃ g, newestGood samples = some g ∧ IsRecordOf slot g
  kept : pending = false → slot ∈ saved
  upTo : ∀ r ∈ saved, r.timestamp ≤ slot.timestamp
  fresh : pending = true → ∀ r ∈ saved, r.timestamp < slot.timestamp
  newest : ∃ r, newestGood saved = some r ∧ r.val = slot.val

/-- What is known in each state. -/
inductive Track (samples saved : List HashedValue) : Dedup → Prop where
  | normal {slot : HashedValue} {pending : Bool} {last : Int} :
      Holds samples saved slot pending → Track samples saved (.normal slot pending last)
  | inFail {slot : HashedValue} {pending : Bool} {last since : Int} :
      Holds samples saved slot pending → Track samples saved (.inFail slot pending last since)
  | failReported {g r : HashedValue} : newestGood samples = some g → r ∈ saved → IsRecordOf r g →
      (∀ v, samples.getLast? = some v → v.isFailure = true) → Track samples saved .failReported

section Step

variable {samples saved : List HashedValue} {slot v : HashedValue} {pending : Bool} {last : Int}

/-- The state after the sample `v` was saved as it came. -/
theorem Track.start (hv : v.isFailure = false)
    (hupTo : ∀ r ∈ saved, r.timestamp ≤ v.timestamp) :
    Track (samples ++ [v]) (saved ++ [v]) (.start v) := by
  refine .normal ⟨hv, ⟨v, newestGood_concat_good samples hv, rfl, .refl _⟩, ?_, ?_, ?_, ?_⟩
  · intro _
    exact List.mem_append_right _ (List.mem_singleton_self v)
  · rw [forall_mem_concat]
    exact ⟨hupTo, le_refl _⟩
  · intro h
    cases h
  · exact ⟨v, newestGood_concat_good saved hv, rfl⟩

/-- A failure leaves the slot as it is. -/
theorem Holds.failure (hh : Holds samples saved slot pending) (hv : v.isFailure = true) :
    Holds (samples ++ [v]) saved slot pending := by
  refine ⟨hh.good, ?_, hh.kept, hh.upTo, hh.fresh, hh.newest⟩
  rw [newestGood_concat_failure samples hv]
  exact hh.last

/-- Saving the slot if it waits. -/
theorem Holds.flush (hh : Holds samples saved slot pending) (hk : Kept samples saved) :
    slot ∈ saved ++ Dedup.before slot pending ∧
      (saved ++ Dedup.before slot pending).Pairwise (fun a b => a.timestamp < b.timestamp) ∧
      ∀ r ∈ saved ++ Dedup.before slot pending, r.timestamp ≤ slot.timestamp := by
  cases pending with
  | false =>
      rw [Dedup.before, if_neg Bool.false_ne_true, List.append_nil]
      exact ⟨hh.kept rfl, hk.increasing, hh.upTo⟩
  | true =>
      rw [Dedup.before, if_pos rfl]
      refine ⟨by simp, ?_, ?_⟩
      · rw [pairwise_concat]
        exact ⟨hk.increasing, hh.fresh rfl⟩
      · rw [forall_mem_concat]
        exact ⟨hh.upTo, le_refl _⟩

/-- A repeated value, with no failure saved since the slot, is no edge. -/
theorem Holds.no_edge (hh : Holds samples saved slot pending)
    (heq : (slot.val == v.val) = true) {g : HashedValue} (hg : newestGood samples = some g) :
    ¬(¬(g.val == v.val) = true ∨
      ∃ r ∈ saved, r.isFailure = true ∧ g.timestamp < r.timestamp) := by
  obtain ⟨g', hg', hts, hsame⟩ := hh.last
  obtain rfl : g' = g := Option.some.inj (hg'.symm.trans hg)
  rintro (hne | ⟨r, hr, -, hlt⟩)
  · exact hne (hsame.beq heq)
  · have := hh.upTo r hr
    grind

/-- Saving the slot if it waits, and then `v`. -/
theorem Holds.save (hh : Holds samples saved slot pending) (hk : Kept samples saved)
    (hlater : ∀ s ∈ samples, s.timestamp < v.timestamp) :
    Kept (samples ++ [v]) (saved ++ (Dedup.before slot pending ++ [v])) := by
  obtain ⟨hmem, hsorted, hupTo⟩ := hh.flush hk
  obtain ⟨g, hg, hrec⟩ := hh.last
  have hslot : slot.timestamp < v.timestamp := by
    rw [hrec.1]
    exact hlater g (newestGood_mem hg)
  have hbefore : ∀ r ∈ Dedup.before slot pending, r = slot := by
    intro r hr
    cases pending with
    | false => exact absurd hr List.not_mem_nil
    | true => exact List.mem_singleton.mp hr
  refine hk.concat _ ?_ ?_ ?_ hlater ?_
  · rw [← List.append_assoc, pairwise_concat]
    exact ⟨hsorted, fun r hr => lt_of_le_of_lt (hupTo r hr) hslot⟩
  · rw [forall_mem_concat]
    refine ⟨?_, v, List.mem_concat_self, rfl, .refl _⟩
    intro r hr
    rw [hbefore r hr]
    exact ⟨g, List.mem_append_left _ (newestGood_mem hg), hrec⟩
  · rw [forall_mem_concat]
    refine ⟨?_, fun _ => rfl⟩
    intro r hr hfail
    rw [hbefore r hr, hh.good] at hfail
    cases hfail
  · intro _ g' hg' _
    obtain rfl : g = g' := Option.some.inj (hg.symm.trans hg')
    rw [← List.append_assoc]
    exact ⟨⟨slot, List.mem_append_left _ hmem, hrec⟩, ⟨v, by simp, rfl, .refl _⟩⟩

/-- The normal rule. -/
theorem Holds.good_step (hh : Holds samples saved slot pending) (hk : Kept samples saved)
    (hv : v.isFailure = false) (hlater : ∀ s ∈ samples, s.timestamp < v.timestamp) :
    Kept (samples ++ [v]) (saved ++ (Dedup.good slot pending last v).saved) ∧
      Track (samples ++ [v]) (saved ++ (Dedup.good slot pending last v).saved)
        (Dedup.good slot pending last v).next := by
  obtain ⟨g, hg, hrec⟩ := hh.last
  have hslot : slot.timestamp < v.timestamp := by
    rw [hrec.1]
    exact hlater g (newestGood_mem hg)
  have hbelow : ∀ r ∈ saved, r.timestamp < v.timestamp :=
    fun r hr => lt_of_le_of_lt (hh.upTo r hr) hslot
  by_cases heq : (slot.val == v.val) = true
  · by_cases hold : v.timestamp - last > STABLE_DELTA
    · -- a repeated value that is saved for the time that has passed
      rw [Dedup.good_heartbeat heq hold]
      refine ⟨hk.concat_self hbelow hlater ?_, Track.start hv fun r hr => le_of_lt (hbelow r hr)⟩
      intro g' hg' hcause
      exact absurd hcause (hh.no_edge heq hg')
    · -- the repeated value waits in the slot
      rw [Dedup.good_duplicate heq hold, List.append_nil]
      refine ⟨?_, .normal ⟨hh.good, ⟨v, newestGood_concat_good samples hv, rfl, .of_beq heq⟩, ?_, ?_,
        ?_, hh.newest⟩⟩
      · have hempty := hk.concat (v := v) [] (by simpa using hk.increasing) (by simp)
          (by simp) hlater (fun _ g' hg' hcause => absurd hcause (hh.no_edge heq hg'))
        simpa using hempty
      · intro h
        cases h
      · exact fun r hr => le_of_lt (hbelow r hr)
      · exact fun _ => hbelow
  · rw [Dedup.good_change heq]
    refine ⟨hh.save hk hlater, ?_⟩
    rw [← List.append_assoc]
    apply Track.start hv
    obtain ⟨-, -, hupTo⟩ := hh.flush hk
    exact fun r hr => le_of_lt (lt_of_le_of_lt (hupTo r hr) hslot)

/-- A failure that causes no record. -/
theorem Kept.failure (hk : Kept samples saved) (hv : v.isFailure = true)
    (hlater : ∀ s ∈ samples, s.timestamp < v.timestamp) : Kept (samples ++ [v]) saved := by
  have hempty := hk.concat (v := v) [] (by simpa using hk.increasing) (by simp) (by simp)
    hlater (fun hgood => by rw [hv] at hgood; cases hgood)
  simpa using hempty

/-- **One sample**, newer than all before it. -/
theorem Track.step {d : Dedup} (ht : Track samples saved d) (hk : Kept samples saved)
    (hlater : ∀ s ∈ samples, s.timestamp < v.timestamp) :
    Kept (samples ++ [v]) (saved ++ (d.step v).saved) ∧
      Track (samples ++ [v]) (saved ++ (d.step v).saved) (d.step v).next := by
  cases hv : v.isFailure with
  | false =>
      cases ht with
      | normal hh =>
          rw [Dedup.step_normal hv]
          exact hh.good_step hk hv hlater
      | inFail hh =>
          rw [Dedup.step_noise hv]
          exact hh.good_step hk hv hlater
      | @failReported g r hg hr hrec _ =>
          -- the last good sample was saved with the report
          rw [Dedup.step_returns hv]
          have hbelow : ∀ r ∈ saved, r.timestamp < v.timestamp := by
            intro r hr
            obtain ⟨s, hs, hts, -⟩ := hk.fed r hr
            rw [hts]
            exact hlater s hs
          refine ⟨hk.concat_self hbelow hlater ?_, Track.start hv fun r hr => le_of_lt (hbelow r hr)⟩
          intro g' hg' _
          obtain rfl : g = g' := Option.some.inj (hg.symm.trans hg')
          exact ⟨⟨r, List.mem_append_left _ hr, hrec⟩, ⟨v, List.mem_concat_self, rfl, .refl _⟩⟩
  | true =>
      cases ht with
      | normal hh =>
          rw [Dedup.step_begins hv, List.append_nil]
          exact ⟨hk.failure hv hlater, .inFail (hh.failure hv)⟩
      | @inFail slot _ _ since hh =>
          by_cases hlong : v.timestamp - since > FAILURE_DELTA
          · rw [Dedup.step_reports hv hlong]
            obtain ⟨hmem, -, -⟩ := hh.flush hk
            obtain ⟨g, hg, hrec⟩ := hh.last
            refine ⟨hh.save hk hlater, .failReported (g := g) (r := slot) ?_ ?_ hrec ?_⟩
            · rw [newestGood_concat_failure samples hv, hg]
            · rw [← List.append_assoc]
              exact List.mem_append_left _ hmem
            · simp [hv]
          · rw [Dedup.step_waits hv hlong, List.append_nil]
            exact ⟨hk.failure hv hlater, .inFail (hh.failure hv)⟩
      | failReported hg hr hrec _ =>
          rw [Dedup.step_lasts hv, List.append_nil]
          refine ⟨hk.failure hv hlater, .failReported ?_ hr hrec (by simp [hv])⟩
          rw [newestGood_concat_failure samples hv, hg]

end Step

/-! ## Runs -/

/-- The invariant, over all samples of a value whose first sample is good. -/
theorem track_run {first : HashedValue} (hfirst : first.isFailure = false)
    (rest : List HashedValue)
    (hmono : (first :: rest).Pairwise fun a b => a.timestamp < b.timestamp) :
    Kept (first :: rest) (Dedup.savedOf (first :: rest)) ∧
      Track (first :: rest) (Dedup.savedOf (first :: rest))
        (run Dedup.feed (.start first) rest).1 := by
  refine run_induction Dedup.feed (s := .start first)
    (motive := fun rest d out => (first :: rest).Pairwise (fun a b => a.timestamp < b.timestamp) →
      Kept (first :: rest) (first :: out) ∧ Track (first :: rest) (first :: out) d) ?_ ?_ rest hmono
  · intro _
    refine ⟨⟨List.pairwise_singleton _ _, ?_, ?_⟩, ?_⟩
    · exact fun r hr => ⟨r, hr, rfl, .refl _⟩
    · -- there is no pair of samples yet
      rintro a b ⟨before, failures, after, heq, -⟩
      have := congrArg List.length heq
      simp at this
      grind
    · show Track ([] ++ [first]) ([] ++ [first]) (.start first)
      exact Track.start hfirst fun r hr => absurd hr List.not_mem_nil
  · intro rest d out v ih hmono
    rw [← List.cons_append, pairwise_concat] at hmono
    obtain ⟨hk, ht⟩ := ih hmono.1
    exact ht.step hk hmono.2

theorem Track.lossless {samples saved : List HashedValue} {d : Dedup} (ht : Track samples saved d)
    (hk : Kept samples saved) : Lossless samples saved := by
  refine ⟨hk, ?_⟩
  intro v hlast hv
  obtain ⟨older, rfl⟩ := List.getLast?_eq_some_iff.mp hlast
  have hslot : ∀ {slot pending}, Holds (older ++ [v]) saved slot pending →
      ∃ r, newestGood saved = some r ∧ Binary64.Same r.val v.val := by
    intro slot pending hh
    obtain ⟨r, hr, hval⟩ := hh.newest
    obtain ⟨g, hg, -, hsame⟩ := hh.last
    rw [newestGood_concat_good older hv] at hg
    obtain rfl := Option.some.inj hg
    exact ⟨r, hr, hval ▸ hsame⟩
  cases ht with
  | normal hh => exact hslot hh
  | inFail hh => exact hslot hh
  | failReported _ _ _ hfail =>
      have := hfail v hlast
      rw [hv] at this
      cases this

/-- After `events` and after each of the events that lead there, nothing panicked and what was
handed to `save_value` for `id` stands for the samples of `id`. -/
def SavesLosslessly (capacity : Nat) (events : List DeviceEvent) (id : Int) : Prop :=
  ∀ done, done <+: events →
    ∃ map saved, runM (writeMeasure capacity) (fun _ => none) done = some (map, saved) ∧
      Lossless (samplesOf id done) (ofKey id saved)

/-- **Lossless deduplication.** -/
theorem write_measure_lossless (capacity : Nat) (hcap : 2 ≤ capacity) (events : List DeviceEvent)
    (id : Int)
    (hfirst : ∀ first ∈ (samplesOf id events).head?, first.isFailure = false)
    (hmono : (samplesOf id events).Pairwise fun a b => a.timestamp < b.timestamp) :
    SavesLosslessly capacity events id := by
  rintro done ⟨later, rfl⟩
  obtain ⟨map, saved, hrun, hsplit⟩ := writeMeasure_split hcap done
  refine ⟨map, saved, hrun, ?_⟩
  rw [(hsplit id).1]
  have happ : samplesOf id (done ++ later) = samplesOf id done ++ samplesOf id later := by
    rw [samplesOf, List.flatMap_append, ofKey_append]
    rfl
  rw [happ] at hfirst hmono
  cases hs : samplesOf id done with
  | nil =>
      refine ⟨⟨List.Pairwise.nil, fun r hr => absurd hr List.not_mem_nil, ?_⟩, by simp⟩
      rintro a b ⟨before, failures, after, heq, -⟩
      have := congrArg List.length heq
      simp at this
  | cons first rest =>
      rw [hs] at hfirst hmono
      have hmono' := hmono.sublist (List.sublist_append_left (first :: rest) _)
      obtain ⟨hk, ht⟩ := track_run (hfirst first rfl) rest hmono'
      exact ht.lossless hk

/-- A value that repeats, is lost for more than two minutes and comes back, next to a value that is
not logged. -/
theorem write_measure_lossless_outage :
    SavesLosslessly 2
      [⟨.full, 1, [⟨Binary64.ofInt 5, true, 7, "U", 1000⟩, ⟨Binary64.ofInt 9, false, 8, "I", 1000⟩]⟩,
        ⟨.full, 1, [⟨Binary64.ofInt 5, true, 7, "U", 1060⟩]⟩,
        ⟨.failed, 1, [⟨Binary64.MIN, true, 7, "U", 1120⟩]⟩,
        ⟨.failed, 1, [⟨Binary64.MIN, true, 7, "U", 1250⟩]⟩,
        ⟨.full, 1, [⟨Binary64.ofInt 5, true, 7, "U", 1310⟩]⟩] 7 :=
  write_measure_lossless 2 (by decide) _ 7 (by decide +kernel) (by decide +kernel)

end ModbusLogger.Hasher
