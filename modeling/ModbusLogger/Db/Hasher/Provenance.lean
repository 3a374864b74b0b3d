import ModbusLogger.Db.Hasher.DbMeasureUnit
import ModbusLogger.Db.Hasher.Lossless
import ModbusLogger.Db.Hasher.RangeQuery

/-!
# Where the answers come from

Whatever `read_measure` answers was measured: each point is a sample of its value, or a row that the
table had before. The ring moves timestamps and rolls back, flushes fail, and values are served from
two places, so this is an invariant of the ring, of the buffer and of the table together.
-/

namespace ModbusLogger.Hasher

open Reader Transducer CyclicWindow

/-- The record of a sample. -/
def Genuine (samples : List HashedValue) (r : HashedValue) : Prop := ∃ v ∈ samples, IsRecordOf r v

section Genuine

variable {samples samples' : List HashedValue} {r v : HashedValue}

theorem Genuine.mono (h : Genuine samples r) (hsubset : samples ⊆ samples') : Genuine samples' r := by
  obtain ⟨v, hv, hr⟩ := h
  exact ⟨v, hsubset hv, hr⟩

theorem genuine_self (h : v ∈ samples) : Genuine samples v := ⟨v, h, rfl, .refl _⟩

theorem genuine_last (samples : List HashedValue) (v : HashedValue) : Genuine (samples ++ [v]) v :=
  genuine_self (List.mem_append_right _ (List.mem_singleton_self v))

/-- A record that takes over the timestamp of an equal sample. -/
theorem genuine_refreshed (heq : (r.val == v.val) = true) :
    Genuine (samples ++ [v]) { r with timestamp := v.timestamp } :=
  ⟨v, List.mem_append_right _ (List.mem_singleton_self v), rfl, .of_beq heq⟩

end Genuine

/-! ## The ring -/

section Ring

variable {N : Nat} {h : ValueHasher} {log samples : List HashedValue}

theorem mem_push {x y : HashedValue} (hx : x ∈ push N log y) : x ∈ log ∨ x = y := by
  obtain ⟨k, -, hk⟩ := push_eq_drop N log y
  rw [hk] at hx
  rcases List.mem_append.mp (List.mem_of_mem_drop hx) with hlog | hlast
  · exact .inl hlog
  · exact .inr (List.mem_singleton.mp hlast)

/-- A new record behind the log. -/
theorem push_genuine (hlog : ∀ r ∈ log, Genuine samples r) (v : HashedValue) :
    ∀ r ∈ push N log v, Genuine (samples ++ [v]) r := by
  intro r hr
  rcases mem_push hr with hold | rfl
  · exact (hlog r hold).mono (List.subset_append_left _ _)
  · exact genuine_last samples r

/-- The timestamp of the last record moves on. -/
theorem refresh_genuine (hlog : ∀ r ∈ log, Genuine samples r) {last v : HashedValue}
    (hlast : log.getLast? = some last) (heq : (last.val == v.val) = true) :
    ∀ r ∈ log.modifyLast fun r => { r with timestamp := v.timestamp }, Genuine (samples ++ [v]) r := by
  obtain ⟨older, rfl⟩ := List.getLast?_eq_some_iff.mp hlast
  intro r hr
  rw [List.modifyLast_concat] at hr
  rcases List.mem_append.mp hr with hold | hnew
  · exact (hlog r (List.mem_append_left _ hold)).mono (List.subset_append_left _ _)
  · rw [List.mem_singleton.mp hnew]
    exact genuine_refreshed heq

/-- What one sample makes of a log and hands over. -/
structure Fresh (samples : List HashedValue) (v : HashedValue) (log saved : List HashedValue) :
    Prop where
  log : ∀ r ∈ log, Genuine (samples ++ [v]) r
  saved : ∀ r ∈ saved, Genuine (samples ++ [v]) r

theorem before_genuine {slot : HashedValue} (hslot : Genuine samples slot) (pending : Bool)
    (v : HashedValue) : ∀ r ∈ Dedup.before slot pending ++ [v], Genuine (samples ++ [v]) r := by
  intro r hr
  rcases List.mem_append.mp hr with hbefore | hlast
  · unfold Dedup.before at hbefore
    split at hbefore
    · rw [List.mem_singleton.mp hbefore]
      exact hslot.mono (List.subset_append_left _ _)
    · exact absurd hbefore List.not_mem_nil
  · rw [List.mem_singleton.mp hlast]
    exact genuine_last samples v

/-- The normal rule. -/
theorem good_fresh (hlog : ∀ r ∈ log, Genuine samples r) {slot : HashedValue}
    (hslot : log.getLast? = some slot) (pending : Bool) (last : Int) (v : HashedValue) :
    Fresh samples v ((Dedup.good slot pending last v).ops.foldl (LogOp.apply N) log)
      (Dedup.good slot pending last v).saved := by
  by_cases heq : (slot.val == v.val) = true
  · by_cases hold : v.timestamp - last > STABLE_DELTA
    · rw [Dedup.good_heartbeat heq hold]
      refine ⟨push_genuine hlog v, fun r hr => ?_⟩
      rw [List.mem_singleton.mp hr]
      exact genuine_last samples v
    · rw [Dedup.good_duplicate heq hold]
      exact ⟨refresh_genuine hlog hslot heq, fun r hr => absurd hr List.not_mem_nil⟩
  · rw [Dedup.good_change heq]
    have hgenuine : Genuine samples slot := hlog slot (List.mem_of_getLast? hslot)
    exact ⟨push_genuine hlog v, before_genuine hgenuine pending v⟩

/-- **One sample.** -/
theorem Represents.fresh {a : History} (hrep : Represents N h a)
    (hlog : ∀ r ∈ a.log, Genuine samples r) (v : HashedValue) :
    Fresh samples v (a.add N v).1.log (a.add N v).2 := by
  obtain ⟨hring, -, -, hcontrol⟩ := hrep
  obtain ⟨d, log⟩ := a
  have hkept : ∀ r ∈ log, Genuine (samples ++ [v]) r :=
    fun r hr => (hlog r hr).mono (List.subset_append_left _ _)
  have hnothing : ∀ r ∈ ([] : List HashedValue), Genuine (samples ++ [v]) r :=
    fun r hr => absurd hr List.not_mem_nil
  have hitself : ∀ r ∈ [v], Genuine (samples ++ [v]) r := by
    intro r hr
    rw [List.mem_singleton.mp hr]
    exact genuine_last samples v
  cases hcontrol with
  | @normal slot hstate hlast =>
      cases hv : v.isFailure with
      | true =>
          rw [History.add, Dedup.step_begins hv]
          exact ⟨push_genuine hlog v, hnothing⟩
      | false =>
          rw [History.add, Dedup.step_normal hv]
          exact good_fresh hlog hlast _ _ v
  | @inFail older slot failure hstate hshape hfail hgap =>
      subst hshape
      have hslot : Genuine samples slot := hlog slot (by simp)
      cases hv : v.isFailure with
      | true =>
          by_cases hlong : v.timestamp - failure.timestamp > FAILURE_DELTA
          · rw [History.add, Dedup.step_reports hv hlong]
            -- both are the one value that marks failures
            have heq : (failure.val == v.val) = true :=
              Binary64.beq_trans hfail (Binary64.beq_symm hv)
            exact ⟨refresh_genuine hlog (by simp) heq, before_genuine hslot _ v⟩
          · rw [History.add, Dedup.step_waits hv hlong]
            exact ⟨hkept, hnothing⟩
      | false =>
          rw [History.add, Dedup.step_noise hv]
          have hrecovered : (older ++ [slot, failure]).dropLast = older ++ [slot] := by
            rw [show older ++ [slot, failure] = older ++ [slot] ++ [failure] by simp,
              List.dropLast_concat]
          show Fresh samples v ((Dedup.good slot _ _ v).ops.foldl (LogOp.apply N)
            (older ++ [slot, failure]).dropLast) _
          rw [hrecovered]
          have holder : ∀ r ∈ older ++ [slot], Genuine samples r := by
            intro r hr
            apply hlog
            rw [← hrecovered] at hr
            exact List.mem_of_mem_dropLast hr
          exact good_fresh holder List.getLast?_concat _ _ v
  | failReported hstate =>
      cases hv : v.isFailure with
      | true =>
          rw [History.add, Dedup.step_lasts hv]
          exact ⟨hkept, hnothing⟩
      | false =>
          rw [History.add, Dedup.step_returns hv]
          exact ⟨push_genuine hlog v, hitself⟩

/-- **All samples of a value.** -/
theorem run_genuine (hN : 2 ≤ N) (first : HashedValue) (rest : List HashedValue) :
    (∀ r ∈ (run (History.add N) (.start first) rest).1.log, Genuine (first :: rest) r) ∧
      ∀ r ∈ Dedup.savedOf (first :: rest), Genuine (first :: rest) r := by
  have hsavedOf : Dedup.savedOf (first :: rest) =
      first :: (run (History.add N) (.start first) rest).2 :=
    congrArg (first :: ·) (History.run_dedup N (.start first) rest).2.symm
  rw [hsavedOf]
  clear hsavedOf
  induction rest using List.reverseRecOn with
  | nil =>
      have hfirst : ∀ r ∈ [first], Genuine [first] r := by
        intro r hr
        rw [List.mem_singleton.mp hr]
        exact genuine_self (List.mem_singleton_self first)
      exact ⟨hfirst, hfirst⟩
  | append_singleton rest v ih =>
      obtain ⟨hlog, hsaved⟩ := ih
      obtain ⟨-, h, -, -, hrep⟩ := run_represents hN first rest
      obtain ⟨hlog', hsaved'⟩ := hrep.fresh hlog v
      rw [run_concat]
      refine ⟨hlog', fun r hr => ?_⟩
      rw [← List.cons_append, List.mem_append] at hr
      rcases hr with hold | hnew
      · exact (hsaved r hold).mono (List.subset_append_left _ _)
      · exact hsaved' r hnew

theorem savedOf_genuine (hN : 2 ≤ N) (samples : List HashedValue) :
    ∀ r ∈ Dedup.savedOf samples, Genuine samples r := by
  cases samples with
  | nil => exact fun r hr => absurd hr List.not_mem_nil
  | cons first rest => exact (run_genuine hN first rest).2

/-- What `get_hashed` answers stands in the ring, in whatever order the records are. -/
theorem RingOf.mem_getHashed (hr : RingOf N h log) {fromTs toTs : Int} {answer : List HashedValue}
    (hanswer : h.getHashed fromTs toTs = some (some answer)) : ∀ v ∈ answer, v ∈ log := by
  have hslots : h.hashedValues.length = h.capacity := hr.slots.trans hr.capacity.symm
  have hlen : log.length ≤ h.hashedValues.length := hr.slots ▸ hr.length_le
  obtain ⟨start, -, hstart⟩ := lowerBoundRing_le hlen h.tail fromTs
  obtain ⟨stop, hstopLe, hstop⟩ := lowerBoundRing_le hlen h.tail toTs
  have hhead := List.head?_eq_some_head hr.ne_nil
  have hliveLen : (h.head + h.capacity - h.tail) % h.capacity + 1 = log.length := hr.liveLen
  rw [ValueHasher.getHashed] at hanswer
  split at hanswer
  · cases hanswer
  · next hopen =>
      simp only [hr.oldest_eq, hhead, hliveLen, hstart, hstop, Option.bind_eq_bind,
        Option.bind_some] at hanswer
      split at hanswer
      · cases hanswer
      split at hanswer
      · cases hanswer
      have hle : start ≤ stop :=
        lowerBoundRing_mono hlen (not_le.mp fun hge => hopen (.inl hge)).le hstart hstop
      have hread : (List.range' start (stop - start)).mapM
          (fun i => h.hashedValues[(h.tail + i) % h.capacity]?) =
            some ((log.drop start).take (stop - start)) := by
        rw [← hslots, mapM_window hlen (by omega), hr.live]
      rw [checkedSub, if_pos hle, Option.bind_some, hread] at hanswer
      obtain rfl := Option.some.inj (Option.some.inj hanswer)
      intro v hv
      exact List.mem_of_mem_drop (List.mem_of_mem_take (List.mem_of_mem_filter hv))

end Ring

/-! ## The master -/

def MeasureMsg.event? : MeasureMsg → Option DeviceEvent
  | .event ev => some ev
  | .request _ => none

/-- The events among the messages that the master has received. -/
def eventsOf (msgs : List MeasureMsg) : List DeviceEvent := msgs.filterMap MeasureMsg.event?

section Master

variable {capacity : Nat} {storage : Storage} {measures : List (Int × HashedValue)}

/-- The rings and what was handed over depend on the events only. -/
theorem run_events {msgs : List MeasureMsg} {m₀ m : MeasureMaster} {handed : List (Int × HashedValue)}
    (h : runM (MeasureMaster.turn capacity storage) m₀ msgs = some (m, handed)) :
    runM (writeMeasure capacity) m₀.hashedMap (eventsOf msgs) = some (m.hashedMap, handed) := by
  induction msgs generalizing m₀ handed with
  | nil =>
      obtain ⟨rfl, rfl⟩ := Prod.mk.inj (Option.some.inj h)
      rfl
  | cons msg msgs ih =>
      rw [runM_cons] at h
      obtain ⟨⟨m₁, saved⟩, hturn, h⟩ := Option.bind_eq_some_iff.mp h
      obtain ⟨⟨m₂, rest⟩, hrest, heq⟩ := Option.map_eq_some_iff.mp h
      obtain ⟨rfl, rfl⟩ := Prod.mk.inj heq
      have hlater := ih hrest
      cases msg with
      | event ev =>
          obtain ⟨⟨map, saved'⟩, hwrite, heq⟩ := Option.map_eq_some_iff.mp hturn
          obtain ⟨rfl, rfl⟩ := Prod.mk.inj heq
          show runM (writeMeasure capacity) m₀.hashedMap (ev :: eventsOf msgs) = _
          rw [runM_cons, hwrite, Option.bind_some, hlater]
          rfl
      | request req =>
          obtain ⟨-, -, heq⟩ := Option.map_eq_some_iff.mp hturn
          obtain ⟨rfl, rfl⟩ := Prod.mk.inj heq
          exact hlater

/-- A row of the table was there before or was handed over, and so was what waits. -/
structure Rows (measures handed : List (Int × HashedValue)) (u : DbMeasureUnit) : Prop where
  rows : ∀ r ∈ u.measures, r ∈ measures ∨ r ∈ handed
  buffered : ∀ r ∈ u.buff.map ForFlush.row, r ∈ handed

namespace Rows

variable {handed : List (Int × HashedValue)} {u : DbMeasureUnit}

theorem flush (h : Rows measures handed u) : Rows measures handed (u.flush storage).1 := by
  have hwritten : ∀ r ∈ u.measures ++ u.buff.map ForFlush.row, r ∈ measures ∨ r ∈ handed := by
    intro r hr
    rcases List.mem_append.mp hr with hrow | hbuff
    · exact h.rows r hrow
    · exact .inr (h.buffered r hbuff)
  unfold DbMeasureUnit.flush
  split
  · exact h
  · dsimp only
    split
    · exact ⟨hwritten, fun r hr => absurd hr List.not_mem_nil⟩
    · exact ⟨h.rows, h.buffered⟩
    · exact ⟨hwritten, h.buffered⟩

theorem saveValue (h : Rows measures handed u) (record : Int × HashedValue) :
    Rows measures (handed ++ [record]) (u.saveValue storage record.1 record.2).1 := by
  have hpushed : Rows measures (handed ++ [record])
      { u with buff := u.buff ++ [⟨record.1, record.2⟩] } := by
    refine ⟨fun r hr => (h.rows r hr).imp_right (List.mem_append_left _), fun r hr => ?_⟩
    rw [List.map_append] at hr
    rcases List.mem_append.mp hr with hold | hnew
    · exact List.mem_append_left _ (h.buffered r hold)
    · exact List.mem_append_right _ hnew
  unfold DbMeasureUnit.saveValue
  dsimp only
  split
  · exact hpushed.flush
  · exact hpushed

theorem save (h : Rows measures handed u) (saved : List (Int × HashedValue)) :
    Rows measures (handed ++ saved) (MeasureMaster.save storage u saved) := by
  induction saved generalizing handed u with
  | nil =>
      rw [List.append_nil]
      exact h
  | cons record saved ih =>
      rw [← List.singleton_append, ← List.append_assoc]
      exact ih (h.saveValue record)

end Rows

theorem run_rows {msgs : List MeasureMsg} {m : MeasureMaster} {handed : List (Int × HashedValue)}
    (h : MeasureMaster.run capacity storage measures msgs = some (m, handed)) :
    Rows measures handed m.dbUnit := by
  have hstart : Rows measures [] (MeasureMaster.new measures).dbUnit :=
    ⟨fun r hr => .inl hr, fun r hr => absurd hr List.not_mem_nil⟩
  refine runM_invariant _ (I := fun m handed => Rows measures handed m.dbUnit) ?_ hstart h
  intro m handed msg m' saved hm hturn
  cases msg with
  | event ev =>
      obtain ⟨r, -, heq⟩ := Option.map_eq_some_iff.mp hturn
      obtain ⟨rfl, rfl⟩ := Prod.mk.inj heq
      exact hm.save r.2
  | request req =>
      obtain ⟨r, -, heq⟩ := Option.map_eq_some_iff.mp hturn
      obtain ⟨rfl, rfl⟩ := Prod.mk.inj heq
      rw [List.append_nil]
      exact hm

/-! ## Responses -/

/-- A request is answered for each of its values in turn. -/
theorem readMeasure_ids {map : HashedMap}
    {getMeasures : Int → Int → Int → Except String (List HashedValue)} {fromTs toTs : Int}
    {ids : List Int} {responses : List MeasureResponse}
    (h : readMeasure map getMeasures fromTs toTs ids = some (.ok responses)) :
    responses.map MeasureResponse.id = ids ∧ ∀ response ∈ responses,
      response.fromTs = fromTs ∧ response.toTs = toTs ∧
        (fromRing map response.id fromTs toTs = some (some response.values) ∨
          getMeasures response.id fromTs toTs = .ok response.values) := by
  induction ids generalizing responses with
  | nil =>
      obtain rfl := Except.ok.inj (Option.some.inj h)
      exact ⟨rfl, fun response hmem => absurd hmem List.not_mem_nil⟩
  | cons id ids ih =>
      rw [readMeasure] at h
      obtain ⟨answer, hanswer, h⟩ := Option.bind_eq_some_iff.mp h
      split at h
      · cases h
      · next values hvalues =>
        obtain ⟨results, hresults, h⟩ := Option.bind_eq_some_iff.mp h
        cases results with
        | error e => cases h
        | ok rest =>
            obtain rfl := Except.ok.inj (Option.some.inj h)
            obtain ⟨hids, hrest⟩ := ih hresults
            refine ⟨congrArg (id :: ·) hids, fun response hmem => ?_⟩
            rcases List.mem_cons.mp hmem with rfl | hmem
            · refine ⟨rfl, rfl, ?_⟩
              cases answer with
              | none => exact .inr hvalues
              | some answer =>
                  obtain rfl := Except.ok.inj hvalues
                  exact .inl hanswer
            · exact hrest response hmem

/-! ## Nothing panics -/

/-- Each entry is a ring. -/
def Rings (N : Nat) (map : HashedMap) : Prop := ∀ id h, map id = some h → ∃ a, Represents N h a

theorem writeValue_total (hcap : 2 ≤ capacity) {entry : Option ValueHasher} (v : HashedValue)
    (hentry : ∀ h, entry = some h → ∃ a, Represents capacity h a) :
    ∃ h saved a, writeValue capacity entry v = some (some h, saved) ∧ Represents capacity h a := by
  cases entry with
  | none =>
      obtain ⟨h, hnew, hrep⟩ := new_represents hcap v
      exact ⟨h, [v], _, by rw [writeValue, hnew, Option.map_some], hrep⟩
  | some hasher =>
      obtain ⟨a, hrep⟩ := hentry hasher rfl
      obtain ⟨h, hfeed, hrep'⟩ := feed_represents hrep v
      exact ⟨h, _, _, by rw [writeValue, hfeed, Option.map_some], hrep'⟩

theorem writeOne_total (hcap : 2 ≤ capacity) (map : HashedMap) (value : ModbusMeasure)
    (hmap : Rings capacity map) : ∃ r, writeOne capacity map value = some r ∧ Rings capacity r.1 := by
  unfold writeOne
  cases sample value with
  | none => exact ⟨(map, []), rfl, hmap⟩
  | some s =>
      obtain ⟨h, saved, a, hwrite, hrep⟩ := writeValue_total hcap s.2 (hmap s.1)
      have hkeyed : keyed (writeValue capacity) map s =
          some (Function.update map s.1 (some h), saved.map (Prod.mk s.1)) := by
        simp only [keyed, hwrite, Option.map_some]
      refine ⟨_, hkeyed, fun id h' hid => ?_⟩
      change Function.update map s.1 (some h) id = some h' at hid
      by_cases hsame : id = s.1
      · subst hsame
        rw [Function.update_self] at hid
        cases hid
        exact ⟨a, hrep⟩
      · rw [Function.update_of_ne hsame] at hid
        exact hmap id h' hid

theorem readMeasure_total {map : HashedMap} (hmap : Rings capacity map)
    (getMeasures : Int → Int → Int → Except String (List HashedValue)) (fromTs toTs : Int)
    (ids : List Int) : ∃ result, readMeasure map getMeasures fromTs toTs ids = some result := by
  induction ids with
  | nil => exact ⟨_, rfl⟩
  | cons id ids ih =>
      obtain ⟨rest, hrest⟩ := ih
      obtain ⟨answer, hanswer⟩ : ∃ answer, fromRing map id fromTs toTs = some answer := by
        unfold fromRing
        cases hid : map id with
        | none => exact ⟨none, rfl⟩
        | some h =>
            obtain ⟨a, hrep⟩ := hmap id h hid
            exact hrep.ring.exists_getHashed fromTs toTs
      rw [readMeasure, hanswer, Option.bind_eq_bind, Option.bind_some]
      split
      · exact ⟨_, rfl⟩
      · rw [hrest]
        exact ⟨_, rfl⟩

theorem run_total (hcap : 2 ≤ capacity) (storage : Storage) (measures : List (Int × HashedValue))
    (msgs : List MeasureMsg) : ∃ m handed,
      MeasureMaster.run capacity storage measures msgs = some (m, handed) ∧
        Rings capacity m.hashedMap := by
  have hstart : Rings capacity (MeasureMaster.new measures).hashedMap := fun id h hid => by cases hid
  have hturn : ∀ m msg, Rings capacity m.hashedMap →
      ∃ r, MeasureMaster.turn capacity storage m msg = some r ∧ Rings capacity r.1.hashedMap := by
    intro m msg hm
    cases msg with
    | event ev =>
        obtain ⟨r, hr, hrings⟩ := runM_total (writeOne capacity) (writeOne_total hcap) hm ev.measures
        have hwrite : writeMeasure capacity m.hashedMap ev = some r := hr
        exact ⟨_, by rw [MeasureMaster.turn, hwrite, Option.map_some], hrings⟩
    | request req =>
        obtain ⟨result, hresult⟩ := readMeasure_total hm
          (fun id => m.dbUnit.getMeasures (req.errors id) id) req.fromTs req.toTs req.valuesId
        have hread : m.readMeasure req = some result := hresult
        exact ⟨_, by rw [MeasureMaster.turn, hread, Option.map_some], hm⟩
  obtain ⟨⟨m, handed⟩, hrun, hrings⟩ := runM_total _ hturn hstart msgs
  exact ⟨m, handed, hrun, hrings⟩

/-! ## Answers -/

/-- The points of a response are samples of its value or old rows. If the samples came in order, they
are in order and in the range. -/
structure Sourced (measures : List (Int × HashedValue)) (events : List DeviceEvent)
    (req : MeasureRequest) (response : MeasureResponse) : Prop where
  range : response.fromTs = req.fromTs ∧ response.toTs = req.toTs
  values : ∀ v ∈ response.values,
    (response.id, v) ∈ measures ∨ Genuine (samplesOf response.id events) v
  ordered : (samplesOf response.id events).Pairwise (fun a b => a.timestamp ≤ b.timestamp) →
    response.values.Pairwise (fun a b => a.timestamp ≤ b.timestamp) ∧
      ∀ v ∈ response.values, req.fromTs ≤ v.timestamp ∧ v.timestamp ≤ req.toTs

theorem samplesOf_prefix {events events' : List DeviceEvent} (h : events <+: events')
    (id : Int) : samplesOf id events <+: samplesOf id events' := by
  obtain ⟨later, rfl⟩ := h
  rw [samplesOf, samplesOf, List.flatMap_append, ofKey_append]
  exact List.prefix_append _ _

/-- More events do not make a response wrong. -/
theorem Sourced.mono {measures : List (Int × HashedValue)} {events events' : List DeviceEvent}
    {req : MeasureRequest} {response : MeasureResponse} (h : Sourced measures events req response)
    (hpre : events <+: events') : Sourced measures events' req response := by
  have hsamples := samplesOf_prefix hpre response.id
  refine ⟨h.range, fun v hv => ?_, fun hsorted => ?_⟩
  · exact (h.values v hv).imp_right fun hgenuine => hgenuine.mono hsamples.subset
  · exact h.ordered (hsorted.sublist hsamples.sublist)

/-- What is known of one value after some events: its ring, and what was handed over for it. -/
theorem runM_writeMeasure_value (hcap : 2 ≤ capacity) {events : List DeviceEvent} {map : HashedMap}
    {saved : List (Int × HashedValue)}
    (h : runM (writeMeasure capacity) (fun _ => none) events = some (map, saved)) (id : Int) :
    ofKey id saved = Dedup.savedOf (samplesOf id events) ∧
      ∀ h, map id = some h → ∃ first rest, samplesOf id events = first :: rest ∧
        Represents capacity h (run (History.add capacity) (.start first) rest).1 := by
  have hall : ∀ id, ∃ r, runM (writeValue capacity) none (samplesOf id events) = some r := by
    intro id
    cases samplesOf id events with
    | nil => exact ⟨_, rfl⟩
    | cons first rest =>
        obtain ⟨h, hrun, -⟩ := runM_writeValue hcap first rest
        exact ⟨_, hrun⟩
  obtain ⟨map', saved', hrun, hsplit⟩ := runM_keyed (m := fun _ => none) hall
  rw [runM_writeMeasure, hrun] at h
  obtain ⟨rfl, rfl⟩ := Prod.mk.inj (Option.some.inj h)
  have hid : runM (writeValue capacity) none (samplesOf id events) =
    some (map' id, ofKey id saved') := hsplit id
  cases hs : samplesOf id events with
  | nil =>
      rw [hs, runM_nil] at hid
      obtain ⟨hmap, hsaved⟩ := Prod.mk.inj (Option.some.inj hid)
      refine ⟨hsaved.symm, fun h hh => ?_⟩
      rw [← hmap] at hh
      cases hh
  | cons first rest =>
      obtain ⟨h, hrun', hrep⟩ := runM_writeValue hcap first rest
      rw [hs, hrun'] at hid
      obtain ⟨hmap, hsaved⟩ := Prod.mk.inj (Option.some.inj hid)
      refine ⟨hsaved.symm, fun h' hh' => ?_⟩
      rw [← hmap] at hh'
      cases hh'
      exact ⟨first, rest, rfl, hrep⟩

/-- An answer of the table. -/
theorem getMeasures_answer {u : DbMeasureUnit} {error : Option String} {id fromTs toTs : Int}
    {values : List HashedValue} (h : u.getMeasures error id fromTs toTs = .ok values) :
    (values.Pairwise fun a b => a.timestamp ≤ b.timestamp) ∧ ∀ v ∈ values,
      (id, v) ∈ u.measures ∧ fromTs ≤ v.timestamp ∧ v.timestamp ≤ toTs := by
  unfold DbMeasureUnit.getMeasures at h
  split at h
  · cases h
  · obtain rfl := Except.ok.inj h
    have htrans : ∀ a b c : HashedValue, DbMeasureUnit.earlier a b = true →
        DbMeasureUnit.earlier b c = true → DbMeasureUnit.earlier a c = true := by
      intro a b c hab hbc
      exact decide_eq_true ((of_decide_eq_true hab).trans (of_decide_eq_true hbc))
    have htotal : ∀ a b : HashedValue,
        (DbMeasureUnit.earlier a b || DbMeasureUnit.earlier b a) = true := by
      intro a b
      rw [Bool.or_eq_true]
      exact (le_total a.timestamp b.timestamp).imp decide_eq_true decide_eq_true
    refine ⟨?_, fun v hv => ?_⟩
    · have hsorted := List.pairwise_mergeSort htrans htotal (selectMeasures u.measures id fromTs toTs)
      exact hsorted.imp fun hle => of_decide_eq_true hle
    · exact mem_selectMeasures.mp (List.mem_mergeSort.mp hv)

/-- An answer of the ring. -/
theorem getHashed_answer (hcap : 2 ≤ capacity) {h : ValueHasher} {first : HashedValue}
    {rest : List HashedValue}
    (hrep : Represents capacity h (run (History.add capacity) (.start first) rest).1)
    {fromTs toTs : Int} {values : List HashedValue}
    (hanswer : h.getHashed fromTs toTs = some (some values)) :
    (∀ v ∈ values, Genuine (first :: rest) v) ∧
      ((first :: rest).Pairwise (fun a b => a.timestamp ≤ b.timestamp) →
        values.Pairwise (fun a b => a.timestamp ≤ b.timestamp) ∧
          ∀ v ∈ values, fromTs ≤ v.timestamp ∧ v.timestamp ≤ toTs) := by
  refine ⟨fun v hv => ?_, fun hmono => ?_⟩
  · exact (run_genuine hcap first rest).1 v (hrep.ring.mem_getHashed hanswer v hv)
  · obtain ⟨hi, ho⟩ := History.run_ordered (N := capacity) hmono
    obtain ⟨answer, hget, hfound, hsilent⟩ := hrep.ring.getHashed_spec ho.sorted fromTs toTs
    obtain rfl := Option.some.inj (hget.symm.trans hanswer)
    have htells : Tells h.SingleSlot (run (History.add capacity) (.start first) rest).1.log
        fromTs toTs := by
      by_contra hnot
      cases hsilent hnot
    obtain rfl := Option.some.inj (hfound htells)
    refine ⟨(ho.sorted.filter _).filter _, fun v hv => ?_⟩
    obtain ⟨hlo, hhi⟩ := inRange_iff.mp (List.mem_filter.mp (List.mem_of_mem_filter hv)).2
    exact ⟨hlo, hhi.le⟩

/-- **Provenance.** Whatever the order of events and requests and however the flushes end, the master
never panics, and an answer has one response for each value that was asked for, all of whose points
are samples of that value or were in the table before. -/
theorem answers_sourced (hcap : 2 ≤ capacity) (storage : Storage)
    (measures : List (Int × HashedValue)) (msgs : List MeasureMsg) :
    ∃ m handed, MeasureMaster.run capacity storage measures msgs = some (m, handed) ∧
      ∀ req, ∃ result, m.readMeasure req = some result ∧ ∀ responses, result = .ok responses →
        responses.map MeasureResponse.id = req.valuesId ∧
          ∀ response ∈ responses, Sourced measures (eventsOf msgs) req response := by
  obtain ⟨m, handed, hrun, hrings⟩ := run_total hcap storage measures msgs
  refine ⟨m, handed, hrun, fun req => ?_⟩
  obtain ⟨result, hread⟩ := readMeasure_total hrings
    (fun id => m.dbUnit.getMeasures (req.errors id) id) req.fromTs req.toTs req.valuesId
  refine ⟨result, hread, ?_⟩
  rintro responses rfl
  obtain ⟨hids, hresponses⟩ := readMeasure_ids hread
  refine ⟨hids, fun response hmem => ?_⟩
  obtain ⟨hfrom, hto, hvalues⟩ := hresponses response hmem
  obtain ⟨hsaved, hring⟩ := runM_writeMeasure_value hcap (run_events hrun) response.id
  rcases hvalues with hvalues | hvalues
  · unfold fromRing at hvalues
    cases hid : m.hashedMap response.id with
    | none =>
        rw [hid] at hvalues
        cases hvalues
    | some h =>
        rw [hid] at hvalues
        obtain ⟨first, rest, hsamples, hrep⟩ := hring h hid
        obtain ⟨hgenuine, hordered⟩ := getHashed_answer hcap hrep hvalues
        rw [← hsamples] at hgenuine hordered
        exact ⟨⟨hfrom, hto⟩, fun v hv => .inr (hgenuine v hv), hordered⟩
  · obtain ⟨hsorted, hrows⟩ := getMeasures_answer hvalues
    refine ⟨⟨hfrom, hto⟩, fun v hv => ?_, fun _ => ⟨hsorted, fun v hv => (hrows v hv).2⟩⟩
    rcases (run_rows hrun).rows _ (hrows v hv).1 with hold | hhanded
    · exact .inl hold
    · right
      apply savedOf_genuine hcap
      rw [← hsaved]
      exact List.mem_filterMap.mpr ⟨_, hhanded, if_pos rfl⟩

end Master

end ModbusLogger.Hasher
