import ModbusLogger.Reader.NodeLoop
import ModbusLogger.Reader.PlanCoverage

/-!
# Which device is polled next

The search for the most lagging device starts from device 0, active or not. With all devices active
it finds the first of the least deadlines, so the polls of a node are a schedule in the sense of
`LeastFirst`, and who is polled between two polls of a device depends on the new deadline of that
device alone.
-/

namespace ModbusLogger.Reader

open FixedWidth ReadMaster

variable {J : Type*} {env : Environment J}

/-! ## The choice -/

/-- The choice leads to the most lagging active device and the time until it is due, and to the pause
of a second if there is none. -/
def SelectsMostLagging (env : Environment J) (s : ReadMaster) : Prop :=
  ∃ s' time, s.whenNext env = some (s', time) ∧
    ((∃ device ∈ s.devices, device.isActive = true) →
      ∃ idx device, s'.currentDeviseIndex = some idx ∧ s.devices[idx]? = some device ∧
        device.isActive = true ∧
        (∀ other ∈ s.devices, other.isActive = true → device.whenNext ≤ other.whenNext) ∧
        time = device.whenNext - env.getTime s.moment) ∧
    ((∀ device ∈ s.devices, device.isActive = false) → time = 1000)

/-- What `whenNextDevice` finds: device 0 stays, or an active device is due before it. -/
theorem whenNextDevice_finds {s : ReadMaster} {first : ModbusDeviceUnit}
    (hfirst : s.devices[0]? = some first) :
    ((∀ d ∈ s.devices, d.isActive = true → first.whenNext ≤ d.whenNext) ∧
      s.whenNextDevice = some ({ s with currentDeviseIndex := some 0 },
        if first.isActive then first.whenNext else 1000)) ∨
    ∃ idx device, s.devices[idx]? = some device ∧ device.isActive = true ∧
      device.whenNext < first.whenNext ∧
      (∀ d ∈ s.devices, d.isActive = true → device.whenNext ≤ d.whenNext) ∧
      s.whenNextDevice = some ({ s with currentDeviseIndex := some idx }, device.whenNext) := by
  have hresult := LeastFirst.foldl_scan ModbusDeviceUnit.whenNext ModbusDeviceUnit.isActive
    s.devices 0 (first.whenNext, 0)
  have hleast := (LeastFirst.foldl_scan_le ModbusDeviceUnit.whenNext ModbusDeviceUnit.isActive
    s.devices 0 (first.whenNext, 0)).2
  rw [← lagging_eq_scan] at hresult hleast
  rcases hresult with heq | ⟨j, device, hdevice, hactive, hlt, heq, -⟩
  · rw [heq] at hleast
    refine .inl ⟨hleast, ?_⟩
    simp [whenNextDevice, hfirst, heq]
  · rw [heq] at hleast
    refine .inr ⟨j, device, hdevice, hactive, hlt, hleast, ?_⟩
    simp [whenNextDevice, hfirst, heq, hdevice, hactive]

theorem whenNext_eq {s : ReadMaster} (hctx : s.ctx.isSome = true) (hdevices : s.devices ≠ []) :
    s.whenNext env = (whenNextDevice { s with moment := s.moment + 1 }).map fun r =>
      (r.1, r.2 - env.getTime s.moment) := by
  obtain ⟨ctx, hctx⟩ := Option.isSome_iff_exists.mp hctx
  simp [whenNext, hdevices, hctx]

/-- **The most lagging active device is selected, if device 0 does not stand in the way.** -/
theorem when_next_selects (env : Environment J) (s : ReadMaster) (hctx : s.ctx.isSome = true)
    (first : ModbusDeviceUnit) (hfirst : s.devices[0]? = some first) :
    SelectsMostLagging env s ↔
      ((∃ device ∈ s.devices, device.isActive = true) → first.isActive = true ∨
        ∃ device ∈ s.devices, device.isActive = true ∧ device.whenNext < first.whenNext) ∧
      ((∀ device ∈ s.devices, device.isActive = false) → env.getTime s.moment = 0) := by
  have hmem : first ∈ s.devices := List.mem_of_getElem? hfirst
  have hnext : s.whenNext env = _ := whenNext_eq hctx (List.ne_nil_of_mem hmem)
  have hfirst' : { s with moment := s.moment + 1 }.devices[0]? = some first := hfirst
  rcases whenNextDevice_finds hfirst' with ⟨hleast, heq⟩ |
    ⟨idx, device, hdevice, hactive, hlt, hleast, heq⟩
  · rw [heq, Option.map_some] at hnext
    constructor
    · rintro ⟨s', time, hs', hsome, hnone⟩
      obtain ⟨rfl, rfl⟩ := Prod.mk.inj (Option.some.inj (hs'.symm.trans hnext))
      refine ⟨fun hexists => .inl ?_, fun hall => ?_⟩
      · obtain ⟨idx, device, hidx, hdevice, hactive, -⟩ := hsome hexists
        obtain rfl : 0 = idx := Option.some.inj hidx
        obtain rfl : first = device := Option.some.inj (hfirst.symm.trans hdevice)
        exact hactive
      · have hoff : ¬first.isActive = true := by simp [hall first hmem]
        have hpause := hnone hall
        rw [if_neg hoff] at hpause
        grind
    · rintro ⟨hsome, hnone⟩
      refine ⟨_, _, hnext, fun hexists => ?_, fun hall => ?_⟩
      · rcases hsome hexists with hactive | ⟨device, hdevice, hactive, hlt⟩
        · exact ⟨0, first, rfl, hfirst, hactive, hleast, by rw [if_pos hactive]⟩
        · exact absurd (hleast device hdevice hactive) (not_le.mpr hlt)
      · have hoff : ¬first.isActive = true := by simp [hall first hmem]
        rw [if_neg hoff, hnone hall, Nat.sub_zero]
  · rw [heq, Option.map_some] at hnext
    have hexists : device ∈ s.devices := List.mem_of_getElem? hdevice
    have hnot : ¬∀ device ∈ s.devices, device.isActive = false := fun hall => by
      rw [hall device hexists] at hactive
      cases hactive
    constructor
    · intro _
      exact ⟨fun _ => .inr ⟨device, hexists, hactive, hlt⟩, fun hall => absurd hall hnot⟩
    · intro _
      exact ⟨_, _, hnext, fun _ => ⟨idx, device, rfl, hdevice, hactive, hleast, rfl⟩,
        fun hall => absurd hall hnot⟩

/-- A node under `pairSettings` whose two devices have one value each, and whose connection attempts
succeed. -/
def sampleEnvironment (clock : Nat → Int) (words : Nat → Reply Word) : Environment (Int × Int) where
  settings := pairSettings
  clock := clock
  words := words
  bits := fun _ => .elapsed
  parses := fun _ => true
  connects := fun _ => true
  devices := fun _ => (0, [⟨1, 1, 100000, 500, 1, true, true⟩, ⟨2, 2, 100000, 500, 1, true, true⟩])
  values := fun _ => some [⟨7, 1, (5, 0), true⟩]

/-- A connected node with two devices. -/
def sampleMaster (first second : Nat × Bool) : ReadMaster :=
  { ReadMaster.new ⟨1, "10.0.0.1", none⟩ with
    devices :=
      [⟨1, 1, 100000, 500, 1, first.2, true, first.1, .new⟩,
        ⟨2, 2, 100000, 500, 1, second.2, true, second.1, .new⟩]
    ctx := some ⟨255⟩ }

/-- An inactive device 0 that is due later does no harm. -/
theorem when_next_selects_later :
    SelectsMostLagging (sampleEnvironment (fun _ => 1000) fun _ => .elapsed)
        (sampleMaster (7000, false) (5000, true)) ↔
      ((∃ device ∈ (sampleMaster (7000, false) (5000, true)).devices, device.isActive = true) →
        false = true ∨ ∃ device ∈ (sampleMaster (7000, false) (5000, true)).devices,
          device.isActive = true ∧ device.whenNext < 7000) ∧
      ((∀ device ∈ (sampleMaster (7000, false) (5000, true)).devices, device.isActive = false) →
        (sampleEnvironment (fun _ => 1000) fun _ => .elapsed).getTime 0 = 0) :=
  when_next_selects _ (sampleMaster (7000, false) (5000, true)) rfl
    ⟨1, 1, 100000, 500, 1, false, true, 7000, .new⟩ rfl

/-- An inactive device 0 that was due earlier keeps the active device from being polled. -/
theorem when_next_stays_on_inactive :
    ¬SelectsMostLagging (sampleEnvironment (fun _ => 1000) fun _ => .elapsed)
      (sampleMaster (0, false) (5000, true)) := by
  rintro ⟨s', time, hs', hsome, -⟩
  obtain ⟨rfl, rfl⟩ := Prod.mk.inj (Option.some.inj hs')
  obtain ⟨idx, device, hidx, hdevice, hactive, -⟩ :=
    hsome ⟨_, List.mem_cons_of_mem _ List.mem_cons_self, rfl⟩
  obtain rfl : 0 = idx := Option.some.inj hidx
  obtain rfl := Option.some.inj hdevice
  cases hactive

/-! ## Polls as a schedule -/

/-- A poll as a turn of the schedule: only a poll that goes through renews the deadline. -/
def Poll.turn (p : Poll) : LeastFirst.Turn Nat where
  deadlines := p.devices.map ModbusDeviceUnit.whenNext
  served := p.index
  renewed := if p.GoesThrough then p.devices[p.index]?.map p.renewed else none

/-- The polls so far are a schedule that ends with the deadlines of the devices. -/
structure OnSchedule (s : ReadMaster) : Prop where
  schedule : LeastFirst.Schedule (s.polls.map Poll.turn) s.deadlines
  fresh : s.devices = [] → s.polls = []

/-- On schedule, with the next device chosen. -/
structure Scheduled (s : ReadMaster) : Prop extends OnSchedule s where
  chosen : s.devices = [] ∨ s.Chosen

/-- On schedule, after a reaction: the next device is chosen or is going to be. -/
structure Reacting (s : ReadMaster) : Prop extends OnSchedule s where
  choosing : s.devices = [] ∨ s.ctx ≠ none ∨ s.Chosen

section Turn

variable {s a s' : ReadMaster}

theorem ReadMaster.Prepared.scheduled (h : s.AllActive → Scheduled s) (hprepared : Prepared s a)
    (hactive : a.AllActive) : Scheduled a := by
  rcases hprepared.devices with ⟨hsome, hentries, hcurrent⟩ | ⟨hnone, hdevices⟩
  · rw [allActive_iff, hentries, ← allActive_iff] at hactive
    obtain ⟨⟨hschedule, hfresh⟩, hchosen⟩ := h hactive
    refine ⟨⟨?_, ?_⟩, .inr ((hchosen.resolve_left hsome).of_eq hentries hcurrent)⟩
    · rw [hprepared.polls, deadlines, hentries]
      exact hschedule
    · intro hnil
      rw [devices_eq_nil_iff, hentries, ← devices_eq_nil_iff] at hnil
      exact absurd hnil hsome
  · have hpolls : a.polls = [] := by
      rw [hprepared.polls]
      exact (h (by simp [AllActive, hnone])).fresh hnone
    refine ⟨⟨?_, fun _ => hpolls⟩, hdevices⟩
    rw [hpolls]
    exact .nil _

/-- A poll changes no active flag. -/
theorem Polled.allActive {idx : Nat} {device : ModbusDeviceUnit} {p : Poll}
    (hp : Polled env a idx device p s') (hdevice : a.devices[idx]? = some device)
    (hactive : s'.AllActive) : a.AllActive := by
  have hflags : s'.entries.map Prod.snd = a.entries.map Prod.snd := by
    rcases hp.after with ⟨-, -, hentries⟩ | ⟨-, hentries⟩
    · have hflag : (a.entries.map Prod.snd)[idx]? = some device.isActive := by
        rw [List.getElem?_map, entries, List.getElem?_map, hdevice]
        rfl
      obtain ⟨hlt, hget⟩ := List.getElem?_eq_some_iff.mp hflag
      rw [hentries, List.map_set, ← hget, List.set_getElem_self]
    · rw [hentries]
  rw [allActive_iff] at hactive ⊢
  intro entry hentry
  have hmem : entry.2 ∈ s'.entries.map Prod.snd := hflags ▸ List.mem_map_of_mem hentry
  obtain ⟨entry', hentry', heq⟩ := List.mem_map.mp hmem
  rw [← heq]
  exact hactive entry' hentry'

theorem Polled.reacting {idx : Nat} {device : ModbusDeviceUnit} {p : Poll}
    (hp : Polled env a idx device p s') (h : a.AllActive → Scheduled a)
    (hidx : a.currentDeviseIndex = some idx) (hdevice : a.devices[idx]? = some device)
    (hactive : s'.AllActive) : Reacting s' := by
  have hactive' := hp.allActive hdevice hactive
  obtain ⟨⟨hschedule, -⟩, hchosen⟩ := h hactive'
  have hsome : a.devices ≠ [] := List.ne_nil_of_mem (List.mem_of_getElem? hdevice)
  obtain ⟨idx', hidx', hleast⟩ := hchosen.resolve_left hsome
  obtain rfl : idx = idx' := Option.some.inj (hidx.symm.trans hidx')
  obtain ⟨x, hleast⟩ := hleast hactive'
  -- the poll is a turn that serves the least deadline
  have hdeadlines : p.turn.deadlines = a.deadlines := by
    simp [Poll.turn, hp.devices, deadlines, entries]
  have hserved : p.turn.served = idx := hp.index
  have hschedule' : LeastFirst.Schedule (s'.polls.map Poll.turn) p.turn.after := by
    rw [hp.polls, List.map_append]
    rw [← hdeadlines] at hschedule hleast
    exact hschedule.concat (hserved ▸ hleast)
  have hstill : s'.devices ≠ [] := by
    rw [Ne, devices_eq_nil_iff] at hsome ⊢
    rcases hp.after with ⟨-, -, hentries⟩ | ⟨-, hentries⟩
    · rwa [hentries, List.set_eq_nil_iff]
    · rwa [hentries]
  rcases hp.after with ⟨hgoes, hctx, hentries⟩ | ⟨hstops, hentries⟩
  · refine ⟨⟨?_, fun hnil => absurd hnil hstill⟩, .inr (.inl ?_)⟩
    · have hrenewed : p.turn.renewed = some (p.renewed device) := by
        simp [Poll.turn, hgoes, hp.devices, hp.index, hdevice]
      have hafter : s'.deadlines = p.turn.after := by
        rw [deadlines, hentries, List.map_set, LeastFirst.Turn.after, hrenewed, hdeadlines, hserved]
        rfl
      rw [hafter]
      exact hschedule'
    · exact Option.isSome_iff_ne_none.mp hctx
  · refine ⟨⟨?_, fun hnil => absurd hnil hstill⟩, .inr (.inr ?_)⟩
    have hrenewed : p.turn.renewed = none := by simp [Poll.turn, hstops]
    have hafter : s'.deadlines = p.turn.after := by
      rw [LeastFirst.Turn.after, hrenewed, hdeadlines, deadlines, hentries]
      rfl
    · rw [hafter]
      exact hschedule'
    · exact Chosen.of_eq ⟨idx, hidx, fun _ => ⟨x, hleast⟩⟩ hentries hp.current

theorem OnSchedule.of_eq (h : OnSchedule s) (hentries : s'.entries = s.entries)
    (hpolls : s'.polls = s.polls) : OnSchedule s' := by
  refine ⟨?_, ?_⟩
  · rw [hpolls, deadlines, hentries]
    exact h.schedule
  · rw [hpolls, devices_eq_nil_iff, hentries, ← devices_eq_nil_iff]
    exact h.fresh

theorem Reacting.scheduled {time : Nat} (h : a.AllActive → Reacting a)
    (hnext : a.whenNext env = some (s', time)) (hactive : s'.AllActive) : Scheduled s' := by
  obtain ⟨hquiet, hentries, hchoice⟩ := whenNext_spec hnext
  rw [allActive_iff, hentries, ← allActive_iff] at hactive
  obtain ⟨honSchedule, hchoosing⟩ := h hactive
  refine ⟨honSchedule.of_eq hentries hquiet.polls, ?_⟩
  have hnil : a.devices = [] → s'.devices = [] := fun hnil => by
    rwa [devices_eq_nil_iff, hentries, ← devices_eq_nil_iff]
  rcases hchoice with ⟨hcurrent, hempty | hctx⟩ | hchosen
  · exact .inl (hnil hempty)
  · rcases hchoosing with hempty | hsome | hchosen
    · exact .inl (hnil hempty)
    · exact absurd hctx hsome
    · exact .inr (hchosen.of_eq hentries hcurrent)
  · exact .inr hchosen

theorem Scheduled.reacting (h : Scheduled s) : Reacting s :=
  ⟨h.toOnSchedule, h.chosen.imp_right .inr⟩

end Turn

/-- **The polls of a run are a schedule**, if the devices stay and are active. -/
theorem run_scheduled {conf : NodeRead} {wakes : List Wake} {n : NodeLoop}
    (hrun : NodeLoop.run env conf wakes = some n)
    (hquiet : ∀ wake ∈ wakes, NodeLoop.KeepsConfig conf wake)
    (hactive : n.readMaster.AllActive) : Scheduled n.readMaster := by
  have hinvariant : n.readMaster.id = conf.id ∧
      (n.readMaster.AllActive → Scheduled n.readMaster) := by
    refine NodeLoop.run_invariant (I := fun s => s.id = conf.id ∧ (s.AllActive → Scheduled s))
      ?_ ?_ hrun
    · exact ⟨rfl, fun _ => ⟨⟨.nil _, fun _ => rfl⟩, .inl rfl⟩⟩
    · rintro s wake a time s' hwake ⟨hid, hscheduled⟩ hreacted hnext
      have hreacting : a.id = conf.id ∧ (a.AllActive → Reacting a) := by
        cases hreacted with
        | nothing hsame =>
            subst hsame
            exact ⟨hid, fun hactive => (hscheduled hactive).reacting⟩
        | updated hmsg htype hown _ =>
            -- no message of the run is an update of this node
            subst hmsg
            rw [hquiet _ hwake (hown.trans hid)] at htype
            cases htype
        | ticked hprepared hsame =>
            subst hsame
            exact ⟨hprepared.id.trans hid,
              fun hactive => (hprepared.scheduled hscheduled hactive).reacting⟩
        | polled hprepared hidx hdevice _ hp =>
            refine ⟨hp.id.trans (hprepared.id.trans hid), ?_⟩
            exact hp.reacting (hprepared.scheduled hscheduled) hidx hdevice
      exact ⟨(whenNext_spec hnext).1.id.trans hreacting.1,
        Reacting.scheduled hreacting.2 hnext⟩
  exact hinvariant.2 hactive

/-! ## Taking turns -/

/-- `p` and `q` are successive polls of one device, and `mid` are those between them. -/
structure Repolled (polls : List Poll) (p : Poll) (mid : List Poll) (q : Poll) : Prop where
  split : ∃ before after, polls = before ++ p :: mid ++ q :: after
  again : q.index = p.index
  others : ∀ m ∈ mid, m.index ≠ p.index

/-- A device that is due at a poll of another one is polled before that one is polled again. -/
def TakesTurns (polls : List Poll) : Prop :=
  ∀ p mid q, Repolled polls p mid q → ∀ j e, p.devices[j]? = some e → j ≠ p.index →
    (e.whenNext : Int) ≤ p.start → ∃ m ∈ mid, m.index = j

/-- The poll goes through, and the new deadline of its device is behind that of the device `e` at
`j`: it is later, or the same and the device is later in the list. -/
def Poll.PutsBehind (p : Poll) (j : Nat) (e : ModbusDeviceUnit) : Prop :=
  p.GoesThrough ∧ ∃ device, p.devices[p.index]? = some device ∧
    LeastFirst.Before e.whenNext j (p.renewed device) p.index

theorem Poll.renewed_iff {p : Poll} {j : Nat} {e : ModbusDeviceUnit} :
    (∃ x, p.turn.renewed = some x ∧ LeastFirst.Before e.whenNext j x p.index) ↔
      p.PutsBehind j e := by
  by_cases hgoes : p.GoesThrough
  · simp [Poll.turn, PutsBehind, hgoes]
  · simp [Poll.turn, PutsBehind, hgoes]

/-- Who is polled between two polls of a device. -/
theorem polled_between {polls : List Poll} {final : List Nat}
    (hschedule : LeastFirst.Schedule (polls.map Poll.turn) final) {p q : Poll} {mid : List Poll}
    (hpq : Repolled polls p mid q) {j : Nat} {e : ModbusDeviceUnit} (he : p.devices[j]? = some e)
    (hne : j ≠ p.index) : (∃ m ∈ mid, m.index = j) ↔ p.PutsBehind j e := by
  obtain ⟨⟨before, after, rfl⟩, hagain, hothers⟩ := hpq
  rw [List.map_append, List.map_append, List.map_cons, List.map_cons] at hschedule
  have hothers' : ∀ m ∈ mid.map Poll.turn, m.served ≠ p.turn.served :=
    List.forall_mem_map.mpr hothers
  have hdeadline : p.turn.deadlines[j]? = some e.whenNext := by
    rw [Poll.turn, List.getElem?_map, he]
    rfl
  calc (∃ m ∈ mid, m.index = j)
      ↔ ∃ m ∈ mid.map Poll.turn, m.served = j := by simp [Poll.turn]
    _ ↔ ∃ x, p.turn.renewed = some x ∧ LeastFirst.Before e.whenNext j x p.turn.served :=
        hschedule.served_between hagain hothers' hne hdeadline
    _ ↔ p.PutsBehind j e := Poll.renewed_iff

/-- **No device starves the others, as long as polls go through.** -/
theorem devices_take_turns (env : Environment J) (conf : NodeRead) (wakes : List Wake)
    (n : NodeLoop) (hrun : NodeLoop.run env conf wakes = some n)
    (hquiet : ∀ wake ∈ wakes, NodeLoop.KeepsConfig conf wake)
    (hactive : n.readMaster.AllActive) :
    TakesTurns n.readMaster.polls ↔
      ∀ p mid q, Repolled n.readMaster.polls p mid q → ∀ j e, p.devices[j]? = some e →
        j ≠ p.index → (e.whenNext : Int) ≤ p.start → p.PutsBehind j e := by
  have hschedule := (run_scheduled hrun hquiet hactive).schedule
  constructor
  · intro hturns p mid q hpq j e he hne hdue
    exact (polled_between hschedule hpq he hne).mp (hturns p mid q hpq j e he hne hdue)
  · intro hbehind p mid q hpq j e he hne hdue
    exact (polled_between hschedule hpq he hne).mpr (hbehind p mid q hpq j e he hne hdue)

/-- Three polls that go through. -/
theorem devices_take_turns_thrice :
    ∃ n, NodeLoop.run (sampleEnvironment (fun m => 1000 * m) fun _ => .data [5])
        ⟨1, "10.0.0.1", none⟩ [.elapsed, .elapsed, .elapsed] = some n ∧
      (TakesTurns n.readMaster.polls ↔
        ∀ p mid q, Repolled n.readMaster.polls p mid q → ∀ j e, p.devices[j]? = some e →
          j ≠ p.index → (e.whenNext : Int) ≤ p.start → p.PutsBehind j e) := by
  have hactive : (NodeLoop.run (sampleEnvironment (fun m => 1000 * m) fun _ => .data [5])
      ⟨1, "10.0.0.1", none⟩ [.elapsed, .elapsed, .elapsed]).map
        (fun n => n.readMaster.devices.all ModbusDeviceUnit.isActive) = some true := by
    decide +kernel
  obtain ⟨n, hrun, hall⟩ := Option.map_eq_some_iff.mp hactive
  refine ⟨n, hrun, devices_take_turns _ _ _ n hrun ?_ (List.all_eq_true.mp hall)⟩
  simp [NodeLoop.KeepsConfig]

/-- The gateway answers the first request to device 0, which it cannot reach. -/
def gatewayEnvironment : Environment (Int × Int) :=
  sampleEnvironment (fun m => if m < 10 then 1000 * m else 1000 * m + 60000)
    fun m => if m = 7 then .exception .gatewayTargetDevice else .data [5]

/-- The connection is made again, and device 0 is polled again, while device 1 is due. -/
theorem failing_device_starves_others :
    NodeLoop.SleepsThrough gatewayEnvironment ⟨1, "10.0.0.1", none⟩ [.elapsed, .elapsed] ∧
      ∃ n, NodeLoop.run gatewayEnvironment ⟨1, "10.0.0.1", none⟩ [.elapsed, .elapsed] = some n ∧
        n.readMaster.AllActive ∧ ¬TakesTurns n.readMaster.polls := by
  have hobserved : (NodeLoop.run gatewayEnvironment ⟨1, "10.0.0.1", none⟩
      [.elapsed, .elapsed]).map (fun n =>
        (n.readMaster.devices.all ModbusDeviceUnit.isActive, n.readMaster.polls.map fun p =>
          (p.index, p.start, p.devices.map ModbusDeviceUnit.whenNext))) =
      some (true, [(0, 6000, [1000, 3000]), (0, 71000, [1000, 3000])]) := by
    decide +kernel
  obtain ⟨n, hrun, hn⟩ := Option.map_eq_some_iff.mp hobserved
  obtain ⟨hall, hpolls⟩ := Prod.mk.inj hn
  refine ⟨by decide +kernel, n, hrun, List.all_eq_true.mp hall, fun hturns => ?_⟩
  obtain ⟨p, rest, heq, hp, hrest⟩ := List.map_eq_cons_iff.mp hpolls
  obtain ⟨q, rest, rfl, hq, hrest⟩ := List.map_eq_cons_iff.mp hrest
  obtain rfl := List.map_eq_nil_iff.mp hrest
  obtain ⟨hpIndex, hp⟩ := Prod.mk.inj hp
  obtain ⟨hstart, hdeadlines⟩ := Prod.mk.inj hp
  have hsecond : (p.devices.map ModbusDeviceUnit.whenNext)[1]? = some 3000 := by rw [hdeadlines]; rfl
  rw [List.getElem?_map, Option.map_eq_some_iff] at hsecond
  obtain ⟨e, he, hnext⟩ := hsecond
  have hagain : q.index = p.index := (Prod.mk.inj hq).1.trans hpIndex.symm
  have hpq : Repolled n.readMaster.polls p [] q :=
    ⟨⟨[], [], heq⟩, hagain, fun m hm => absurd hm List.not_mem_nil⟩
  obtain ⟨m, hm, -⟩ := hturns p [] q hpq 1 e he (by omega) (by omega)
  exact List.not_mem_nil hm

end ModbusLogger.Reader
