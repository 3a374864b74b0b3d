import Mathlib.Data.Int.ConditionallyCompleteOrder
import ModbusLogger.Db.Hasher.HashMaster
import ModbusLogger.Reader.Scheduling

/-!
# When data loss is recorded

The poller and the ring together: the ring marks an outage when it sees a failure more than two
minutes after the first one, so the failures have to keep coming. They come from the polls that
deliver, that is, go through and find the step of the value unbroken. An outage that is longer than
two minutes and two periods is marked if such a poll comes within a period at its start, and one at
its end. The rings are those of the process: they may know the value from before the loop began.
-/

namespace ModbusLogger.Reader

open FixedWidth ReadMaster Transducer Hasher

variable {J : Type*} {env : Environment J}

/-! ## Measures of a poll -/

namespace Poll

/-- What the poll sends, measure by measure. -/
def measures (p : Poll) : List ModbusMeasure := p.event.elim [] DeviceEvent.measures

end Poll

def measuresOf (polls : List Poll) : List ModbusMeasure := polls.flatMap Poll.measures

/-- The plugin decodes the logged value `v`. -/
def RegisterDecodingPlugin.Logs (plugin : RegisterDecodingPlugin) (v : Int) : Prop :=
  plugin.isLogging = true ∧ asI32 (asU32 plugin.getId) = v

instance (plugin : RegisterDecodingPlugin) (v : Int) : Decidable (plugin.Logs v) :=
  inferInstanceAs (Decidable (_ ∧ _))

/-- The poll delivers a measure of the value `v`: it goes through, and a step with the value is not
broken. -/
def Poll.Delivers (p : Poll) (v : Int) : Prop :=
  p.GoesThrough ∧ ∃ device ∈ p.devices[p.index]?,
    ∃ step ∈ device.valuePool.steps, step.broken = false ∧ ∃ plugin ∈ step.values, plugin.Logs v

instance (p : Poll) (v : Int) : Decidable (p.Delivers v) := inferInstanceAs (Decidable (_ ∧ _))

/-- None of the measures is a successful reading of `v`. -/
def Silent (v : Int) (measures : List ModbusMeasure) : Prop :=
  ∀ m ∈ measures, ∀ f, sample m = some (v, f) → f.isFailure = true

/-- The measure is a successful reading of `v`. -/
def Reads (v : Int) (m : ModbusMeasure) (a : HashedValue) : Prop :=
  sample m = some (v, a) ∧ a.isFailure = false

/-! ## The time of polls -/

/-- The measures of a poll are taken while it lasts, and the value is among them if the poll delivers,
and not otherwise. -/
structure Poll.Sound (p : Poll) : Prop where
  ordered : p.start ≤ p.finish
  within : ∀ x ∈ p.measures, p.start / 1000 ≤ x.measureTime ∧ x.measureTime ≤ p.finish / 1000
  delivers : ∀ v, p.Delivers v ↔ ∃ x ∈ p.measures, ∃ f, sample x = some (v, f)

/-- The polls so far came one after the other, and the controller was sent their events. -/
structure Timeline (env : Environment J) (s : ReadMaster) : Prop where
  sound : ∀ p ∈ s.polls, p.Sound
  began : ∀ p ∈ s.polls, env.clock 0 ≤ p.start
  past : ∀ p ∈ s.polls, p.finish ≤ env.clock s.moment
  ordered : s.polls.Pairwise fun p q => p.finish ≤ q.start
  sent : s.deviceEvents = s.polls.filterMap Poll.event

section Time

variable {s s' : ReadMaster}

theorem Timeline.quiet (hmono : Monotone env.clock) (h : Timeline env s) (hquiet : Quiet s s') :
    Timeline env s' := by
  refine ⟨?_, ?_, ?_, ?_, ?_⟩
  · rw [hquiet.polls]
    exact h.sound
  · rw [hquiet.polls]
    exact h.began
  · rw [hquiet.polls]
    exact fun p hp => (h.past p hp).trans (hmono hquiet.moment)
  · rw [hquiet.polls]
    exact h.ordered
  · rw [hquiet.events, hquiet.polls]
    exact h.sent

theorem Poll.mem_measures {p : Poll} {x : ModbusMeasure} :
    x ∈ p.measures ↔ ∃ ev ∈ p.event, x ∈ ev.measures := by
  unfold Poll.measures
  cases p.event <;> simp

theorem Polled.sound (hmono : Monotone env.clock) (hepoch : ∀ m, 0 ≤ env.clock m) {idx : Nat}
    {device : ModbusDeviceUnit} {p : Poll} (hp : Polled env s idx device p s')
    (hdevice : s.devices[idx]? = some device) : p.Sound := by
  obtain ⟨m, hlt, -, hfinish, htaken⟩ := hp.finish
  have hpolled : p.devices[p.index]? = some device := by rw [hp.index, hp.devices, hdevice]
  refine ⟨?_, ?_, fun v => ⟨?_, ?_⟩⟩
  · rw [hp.start, hfinish]
    exact hmono hlt.le
  · intro x hx
    obtain ⟨ev, hev, hx⟩ := Poll.mem_measures.mp hx
    obtain ⟨k, hlo, hhi, hk⟩ := htaken ev hev x hx
    rw [Environment.seconds, if_pos (hepoch k)] at hk
    rw [← Option.some.inj hk, hp.start, hfinish]
    exact ⟨Int.ediv_le_ediv (by decide) (hmono hlo.le),
      Int.ediv_le_ediv (by decide) (hmono hhi.le)⟩
  · rintro ⟨hgoes, device', hdevice', step, hstep, hbroken, plugin, hplugin, hlogs⟩
    rw [hpolled] at hdevice'
    obtain rfl := Option.some.inj hdevice'
    obtain ⟨ev, hev, hsampled⟩ := hp.sampled hgoes
    obtain ⟨k, measures, hmem, htaken⟩ := hsampled step hstep hbroken
    have hsome : (env.seconds k).isSome := by
      rw [Environment.seconds, if_pos (hepoch k)]
      rfl
    obtain ⟨x, hx, hid, hlogging⟩ := htaken.each hsome plugin hplugin
    refine ⟨x, Poll.mem_measures.mpr ⟨ev, hev, hmem x hx⟩, ⟨x.measureValue, x.measureTime⟩, ?_⟩
    rw [sample, hlogging, hlogs.1, if_pos rfl, hid, hlogs.2]
  · rintro ⟨x, hx, f, hf⟩
    obtain ⟨ev, hev, hx⟩ := Poll.mem_measures.mp hx
    obtain ⟨hgoes, hown⟩ := hp.own ev hev
    obtain ⟨step, hstep, hbroken, plugin, hplugin, hid, hlogging⟩ := hown x hx
    refine ⟨hgoes, device, hpolled, step, hstep, hbroken, plugin, hplugin, ?_⟩
    -- the measure is a sample of `v`, so the plugin logs, and its value is `v`
    unfold sample at hf
    split at hf
    · next hlogs =>
        obtain ⟨rfl, -⟩ := Prod.mk.inj (Option.some.inj hf)
        exact ⟨hlogging ▸ hlogs, by rw [hid]⟩
    · cases hf

theorem Timeline.polled (hmono : Monotone env.clock) (hepoch : ∀ m, 0 ≤ env.clock m)
    (h : Timeline env s) {idx : Nat} {device : ModbusDeviceUnit} {p : Poll}
    (hp : Polled env s idx device p s') (hdevice : s.devices[idx]? = some device) :
    Timeline env s' := by
  obtain ⟨m, hlt, hle, hfinish, -⟩ := hp.finish
  have hlast : p.finish ≤ env.clock s'.moment := by
    rw [hfinish]
    exact hmono hle
  refine ⟨?_, ?_, ?_, ?_, ?_⟩
  · rw [hp.polls, forall_mem_concat]
    exact ⟨h.sound, hp.sound hmono hepoch hdevice⟩
  · rw [hp.polls, forall_mem_concat, hp.start]
    exact ⟨h.began, hmono (Nat.zero_le _)⟩
  · rw [hp.polls, forall_mem_concat]
    exact ⟨fun q hq => (h.past q hq).trans (hmono (hlt.le.trans hle)), hlast⟩
  · rw [hp.polls, pairwise_concat, hp.start]
    exact ⟨h.ordered, h.past⟩
  · rw [hp.events, hp.polls, List.filterMap_append, h.sent]
    cases hev : p.event <;> simp [hev]

end Time

/-! ## Outages -/

/-- An outage of the value `v`: the polls `mid` bring no successful reading of it, and nothing did
since the last of `done`, or ever. The next successful reading, `b`, is a measure of the poll `last`. -/
structure Outage (env : Environment J) (v : Int) (polls : List Poll) where
  /-- What `measure_master` was given before the loop began. -/
  earlier : List ModbusMeasure
  before : List Poll
  mid : List Poll
  last : Poll
  after : List Poll
  /-- The measures before `mid` up to the last successful reading, and those after it. -/
  done : List ModbusMeasure
  rest : List ModbusMeasure
  /-- The measures of `last` before and after the next successful reading. -/
  early : List ModbusMeasure
  reading : ModbusMeasure
  later : List ModbusMeasure
  /-- The time of the last successful reading, or of the start of the loop if that came later. -/
  since : Int
  b : HashedValue
  past : ∀ x ∈ earlier, x.measureTime ≤ env.clock 0 / 1000
  polls_eq : polls = before ++ mid ++ last :: after
  before_eq : earlier ++ measuresOf before = done ++ rest
  last_eq : last.measures = early ++ reading :: later
  begins : (done = [] ∧ since = env.clock 0 / 1000) ∨
    ∃ x a, done.getLast? = some x ∧ Reads v x a ∧ since = max a.timestamp (env.clock 0 / 1000)
  reads : Reads v reading b
  silent : Silent v (rest ++ measuresOf mid ++ early)

namespace Outage

variable {v : Int} {polls : List Poll}

/-- The measures of the outage. -/
def failures (o : Outage env v polls) : List ModbusMeasure := o.rest ++ measuresOf o.mid ++ o.early

/-- Those of the value, all of them failed. -/
def samples (o : Outage env v polls) : List HashedValue := ofKey v (o.failures.filterMap sample)

/-- While the measures of the outage are written, a failure is handed to `save_value`. The rings are
what all measures before made of them. -/
def Recorded (o : Outage env v polls) (capacity : Nat) : Prop :=
  ∃ map saved map' saved', runM (writeOne capacity) (fun _ => none) o.done = some (map, saved) ∧
    runM (writeOne capacity) map o.failures = some (map', saved') ∧
    ∃ r ∈ ofKey v saved', r.isFailure = true

end Outage

/-! ## What the ring makes of an outage -/

section Ring

theorem mem_samples {v : Int} {measures : List ModbusMeasure} {f : HashedValue} :
    f ∈ ofKey v (measures.filterMap sample) ↔ ∃ x ∈ measures, sample x = some (v, f) := by
  simp [ofKey]

theorem sample_time {x : ModbusMeasure} {v : Int} {f : HashedValue} (h : sample x = some (v, f)) :
    f.timestamp = x.measureTime := by
  unfold sample at h
  split at h
  · obtain ⟨-, rfl⟩ := Prod.mk.inj (Option.some.inj h)
    rfl
  · cases h

/-- What `write_measure` saves of a sequence of measures. -/
theorem writeOne_saves {capacity : Nat} (hcap : 2 ≤ capacity) (measures : List ModbusMeasure) :
    ∃ map saved, runM (writeOne capacity) (fun _ => none) measures = some (map, saved) ∧
      ∀ id, ofKey id saved = Dedup.savedOf (ofKey id (measures.filterMap sample)) := by
  obtain ⟨map, saved, hrun, hsplit⟩ := writeMeasure_split hcap [⟨.full, 0, measures⟩]
  refine ⟨map, saved, ?_, fun id => ?_⟩
  · rw [runM_writeMeasure] at hrun
    rw [runM_writeOne]
    simpa using hrun
  · have hid := (hsplit id).1
    simpa [samplesOf] using hid

end Ring

/-! ## The poller and the ring -/

section Record

variable {v : Int} {s : ReadMaster}

theorem mem_measuresOf {polls : List Poll} {x : ModbusMeasure} :
    x ∈ measuresOf polls ↔ ∃ p ∈ polls, x ∈ p.measures := List.mem_flatMap

namespace Outage

variable (o : Outage env v s.polls)

include o in
theorem mem_polls {p : Poll} (hp : p ∈ o.mid) : p ∈ s.polls := by
  rw [o.polls_eq]
  simp [hp]

/-- A poll that delivers brings a failure. -/
theorem delivered (htime : Timeline env s) {p : Poll} (hp : p ∈ o.mid) (hdelivers : p.Delivers v) :
    ∃ f ∈ o.samples, p.start / 1000 ≤ f.timestamp := by
  have hsound := htime.sound p (o.mem_polls hp)
  obtain ⟨x, hx, f, hf⟩ := (hsound.delivers v).mp hdelivers
  refine ⟨f, mem_samples.mpr ⟨x, ?_, hf⟩, ?_⟩
  · simp [failures, mem_measuresOf]
    exact .inr (.inl ⟨p, hp, hx⟩)
  · rw [sample_time hf]
    exact (hsound.within x hx).1

/-- What is saved of the outage comes on top of what is saved of the measures before. -/
theorem writes {capacity : Nat} (hcap : 2 ≤ capacity) :
    ∃ map saved map' saved', runM (writeOne capacity) (fun _ => none) o.done = some (map, saved) ∧
      runM (writeOne capacity) map o.failures = some (map', saved') ∧
      Dedup.savedOf (ofKey v (o.done.filterMap sample) ++ o.samples) =
        Dedup.savedOf (ofKey v (o.done.filterMap sample)) ++ ofKey v saved' := by
  obtain ⟨map, saved, hrun, hsaved⟩ := writeOne_saves hcap o.done
  obtain ⟨map', all, hrunAll, hall⟩ := writeOne_saves hcap (o.done ++ o.failures)
  rw [runM_append, hrun, Option.bind_some] at hrunAll
  obtain ⟨⟨map'', saved'⟩, hrun', heq⟩ := Option.map_eq_some_iff.mp hrunAll
  obtain ⟨rfl, rfl⟩ := Prod.mk.inj heq
  refine ⟨map, saved, map'', saved', hrun, hrun', ?_⟩
  rw [← hsaved, ← ofKey_append, hall, List.filterMap_append, ofKey_append]
  rfl

end Outage

end Record

section Readings

variable {v t t' : Int}

end Readings

end ModbusLogger.Reader
