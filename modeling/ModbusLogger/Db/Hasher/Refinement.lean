import ModbusLogger.Db.Hasher.History
import Mathlib.Data.List.ModifyLast

/-!
# The ring refines the plain list

`RingOf N h log` says that the slots of `h` between tail and head, in ring order, are `log`, and
that the four cursors are in one of three shapes: the ring is still filling, it is full, or it is
full but for the slot given up by a roll-back. Every method keeps it and does to `log` what
`LogOp` says. `Represents` adds the flags, and the theorem at the end is the refinement.
-/

namespace ModbusLogger.Hasher

open CyclicWindow

/-! ## Shapes of the cursors -/

/-- How the cursors relate when `len` slots are live. -/
inductive Shape (N : Nat) (ringFinished : Bool) (current head tail : Nat) : Nat → Prop where
  | filling : ringFinished = false → tail = 0 → current = head →
      Shape N ringFinished current head tail (head + 1)
  | full : ringFinished = true → tail = (head + 1) % N → Shape N ringFinished current head tail N
  | gap : ringFinished = true → tail = (head + 2) % N →
      Shape N ringFinished current head tail (N - 1)

/-- The live slots of the ring are `log`. -/
structure RingOf (N : Nat) (h : ValueHasher) (log : List HashedValue) : Prop where
  two_le : 2 ≤ N
  capacity : h.capacity = N
  slots : h.hashedValues.length = N
  head_lt : h.head < N
  shape : Shape N h.ringFinished h.current h.head h.tail log.length
  live : window h.hashedValues h.tail log.length = log

/-- No slot was given up: the last operation was a push. -/
def NoGap (N : Nat) (h : ValueHasher) : Prop :=
  if h.ringFinished then h.tail = (h.head + 1) % N else 0 < h.head

/-- The control fields are untouched. -/
structure SameFlags (h h' : ValueHasher) : Prop where
  lastEmittedTs : h'.lastEmittedTs = h.lastEmittedTs
  isResolvingDuplicate : h'.isResolvingDuplicate = h.isResolvingDuplicate
  state : h'.state = h.state
  stableDelta : h'.stableDelta = h.stableDelta
  failureDelta : h'.failureDelta = h.failureDelta

namespace RingOf

variable {N : Nat} {h : ValueHasher} {log : List HashedValue}

/-- The control fields play no part. -/
theorem flags (hr : RingOf N h log) (state : HashState) (last : Int) (pending : Bool) :
    RingOf N { h with state, lastEmittedTs := last, isResolvingDuplicate := pending } log :=
  ⟨hr.two_le, hr.capacity, hr.slots, hr.head_lt, hr.shape, hr.live⟩

theorem length_pos (hr : RingOf N h log) : 0 < log.length := by
  have hN := hr.two_le
  generalize hlen : log.length = len
  have hs := hr.shape
  rw [hlen] at hs
  cases hs <;> omega

theorem length_le (hr : RingOf N h log) : log.length ≤ N := by
  have hlt := hr.head_lt
  generalize hlen : log.length = len
  have hs := hr.shape
  rw [hlen] at hs
  cases hs <;> omega

theorem ne_nil (hr : RingOf N h log) : log ≠ [] := List.ne_nil_of_length_pos hr.length_pos

/-- The head is the last slot of the window. -/
theorem head_eq (hr : RingOf N h log) : (h.tail + (log.length - 1)) % N = h.head := by
  have hN := hr.two_le
  have hlt := hr.head_lt
  generalize hlen : log.length = len
  have hs := hr.shape
  rw [hlen] at hs
  cases hs with
  | filling _ htail _ => rw [htail, Nat.zero_add, Nat.add_sub_cancel, Nat.mod_eq_of_lt hlt]
  | full _ htail =>
      rw [htail, Nat.mod_add_mod, show h.head + 1 + (N - 1) = h.head + N by omega,
        Nat.add_mod_right, Nat.mod_eq_of_lt hlt]
  | gap _ htail =>
      rw [htail, Nat.mod_add_mod, show h.head + 2 + (N - 1 - 1) = h.head + N by omega,
        Nat.add_mod_right, Nat.mod_eq_of_lt hlt]

/-- `self.hashed_values[self.head]` is the newest record. -/
theorem slot_eq (hr : RingOf N h log) : h.slot = log.getLast? := by
  have hw := getLast?_window h.hashedValues h.tail hr.length_pos
    (hr.slots ▸ hr.length_le)
  rw [hr.live, hr.slots, hr.head_eq] at hw
  exact hw.symm

/-! ## One method at a time -/

/-- The slot that the next record goes to is the one behind the window. -/
theorem next_eq (hr : RingOf N h log) : (h.tail + log.length) % N = (h.head + 1) % N := by
  have hpos := hr.length_pos
  rw [← hr.head_eq, Nat.mod_add_mod, show h.tail + (log.length - 1) + 1 = h.tail + log.length by omega]

/-- What a push has to do with the cursors. -/
theorem pushed (hr : RingOf N h log) (v : HashedValue) (ringFinished : Bool) (current tail : Nat)
    (hpush : h.advance.goAhead.setSlot v = some
      { h with hashedValues := h.hashedValues.set ((h.head + 1) % N) v, current := current,
               head := (h.head + 1) % N, tail := tail, ringFinished := ringFinished })
    (hshape : Shape N ringFinished current ((h.head + 1) % N) tail
      (if log.length < N then log.length + 1 else N))
    (htail : tail = if log.length < N then h.tail else (h.tail + 1) % N)
    (hgap : if ringFinished then tail = ((h.head + 1) % N + 1) % N else 0 < (h.head + 1) % N) :
    ∃ h', h.advance.goAhead.setSlot v = some h' ∧ RingOf N h' (CyclicWindow.push N log v) ∧
      NoGap N h' ∧ SameFlags h h' := by
  have hN := hr.two_le
  refine ⟨_, hpush, ⟨hN, hr.capacity, ?_, Nat.mod_lt _ (by omega), ?_, ?_⟩, hgap,
    ⟨rfl, rfl, rfl, rfl, rfl⟩⟩
  · rw [List.length_set, hr.slots]
  · rw [CyclicWindow.length_push v hr.length_le (by omega)]
    exact hshape
  · have hwindow := window_push hr.live (by rw [hr.slots]; exact hr.length_le)
      (by rw [hr.slots]; omega) v
    rw [hr.slots, hr.next_eq, ← htail] at hwindow
    exact hwindow

/-- `advance`, `go_ahead` and the write of the new head append a record. -/
theorem push (hr : RingOf N h log) (v : HashedValue) :
    ∃ h', h.advance.goAhead.setSlot v = some h' ∧ RingOf N h' (CyclicWindow.push N log v) ∧
      NoGap N h' ∧ SameFlags h h' := by
  have hN := hr.two_le
  have hlt := hr.head_lt
  have hcap := hr.capacity
  have hslots := hr.slots
  have hnext : (h.head + 1) % N < N := Nat.mod_lt _ (by omega)
  have htwice : (N + (h.head + 1) % N + 1) % N = ((h.head + 1) % N + 1) % N := by
    rw [Nat.add_assoc, Nat.add_mod_left]
  generalize hlen : log.length = len
  have hs := hr.shape
  rw [hlen] at hs
  cases hs with
  | filling hfin htail hcur =>
    by_cases hend : h.head + 1 = N
    · -- the ring closes: the new head is slot 0, which held the oldest record
      have hzero : (h.head + 1) % N = 0 := by rw [hend, Nat.mod_self]
      have hclosed : h.current + 1 = N := by omega
      refine hr.pushed v true (h.current + 1) (((h.head + 1) % N + 1) % N) ?_ ?_ ?_ rfl
      · simp only [ValueHasher.advance, ValueHasher.goAhead, ValueHasher.setSlot, hfin, hclosed, hcap,
          htwice, hslots, hnext, Bool.false_eq_true, if_false, if_true]
      · rw [if_neg (by omega)]
        exact .full rfl rfl
      · rw [if_neg (by omega), hzero, htail]
    · have hsucc : (h.head + 1) % N = h.head + 1 := Nat.mod_eq_of_lt (by omega)
      have hopen : ¬h.current + 1 = N := by omega
      apply hr.pushed v false (h.current + 1) h.tail
      · simp only [ValueHasher.advance, ValueHasher.goAhead, ValueHasher.setSlot, hfin, hopen, hcap,
          hslots, hnext, Bool.false_eq_true, if_false, if_true]
      · rw [if_pos (by omega), hlen, hsucc]
        exact .filling rfl htail (by omega)
      · rw [if_pos (by omega)]
      · rw [if_neg Bool.false_ne_true, hsucc]
        exact Nat.succ_pos h.head
  | full hfin htail =>
    -- the slot behind the head is the tail
    refine hr.pushed v true h.current (((h.head + 1) % N + 1) % N) ?_ ?_ ?_ rfl
    · simp only [ValueHasher.advance, ValueHasher.goAhead, ValueHasher.setSlot, hfin, hcap, htwice,
        hslots, hnext, if_true]
    · rw [if_neg (by omega)]
      exact .full rfl rfl
    · rw [if_neg (by omega), htail]
  | gap hfin htail =>
    -- the slot given up by the roll-back is used again, and the tail stays
    have hstays : h.tail = ((h.head + 1) % N + 1) % N := by rw [htail, Nat.mod_add_mod]
    apply hr.pushed v true h.current h.tail
    · simp only [ValueHasher.advance, ValueHasher.goAhead, ValueHasher.setSlot, hfin, hcap, htwice,
        hslots, hnext, ← hstays, if_true]
    · rw [if_pos (by omega), show log.length + 1 = N by omega]
      exact .full rfl hstays
    · rw [if_pos (by omega)]
    · exact hstays

/-- Writing the head replaces the newest record. -/
theorem setSlot (hr : RingOf N h log) (v : HashedValue) :
    ∃ h', h.setSlot v = some h' ∧ RingOf N h' (log.dropLast ++ [v]) ∧ SameFlags h h' := by
  have hlen : (log.dropLast ++ [v]).length = log.length := by
    rw [List.length_append, List.length_dropLast, List.length_singleton]
    have := hr.length_pos
    grind
  refine ⟨{ h with hashedValues := h.hashedValues.set h.head v }, ?_,
    ⟨hr.two_le, hr.capacity, by simp only [List.length_set, hr.slots], hr.head_lt, ?_, ?_⟩,
    ⟨rfl, rfl, rfl, rfl, rfl⟩⟩
  · rw [ValueHasher.setSlot, if_pos (by rw [hr.slots]; exact hr.head_lt)]
  · rw [hlen]
    exact hr.shape
  · have hset := window_set_last h.hashedValues h.tail v hr.length_pos
      (hr.slots ▸ hr.length_le)
    rw [hr.slots, hr.head_eq, hr.live] at hset
    rw [hlen]
    exact hset

/-- After a push, `roll_back` gives the newest slot up. `current` was counted for it, so taking one
back does not underflow. -/
theorem rollBack (hr : RingOf N h log) (hgap : NoGap N h) :
    ∃ current, (if h.ringFinished then some h.current else checkedSub h.current 1) = some current ∧
      RingOf N { h with current }.rollBack log.dropLast := by
  have hN := hr.two_le
  have hlt := hr.head_lt
  have hcap := hr.capacity
  have hslots := hr.slots
  have hlog : (log.dropLast).length = log.length - 1 := List.length_dropLast
  have hwin : window h.hashedValues h.tail (log.length - 1) = log.dropLast := by
    rw [← window_dropLast (hslots ▸ hr.length_le), hr.live]
  generalize hlen : log.length = len at hwin hlog
  have hs := hr.shape
  rw [hlen] at hs
  cases hs with
  | filling hfin htail hcur =>
    have hpos : 0 < h.head := by simpa [NoGap, hfin] using hgap
    refine ⟨h.current - 1, ?_, ⟨hN, ?_, ?_, ?_, ?_, ?_⟩⟩
    · simp only [hfin, Bool.false_eq_true, if_false, checkedSub]
      rw [if_pos (by omega)]
    all_goals simp only [ValueHasher.rollBack, hfin, Bool.false_eq_true, if_false, ne_eq,
      Nat.ne_of_gt hpos, not_false_eq_true, if_true]
    · exact hcap
    · exact hslots
    · grind
    · rw [hlog, show h.head + 1 - 1 = (h.head - 1) + 1 by omega]
      exact .filling rfl htail (by omega)
    · rw [hlog]
      exact hwin
  | full hfin htail =>
    have hnext : ((if h.head = 0 then h.capacity - 1 else h.head - 1) + 2) % N =
        (h.head + 1) % N := by
      split
      · next hzero =>
        rw [hcap, hzero, show N - 1 + 2 = 0 + 1 + N by omega, Nat.add_mod_right]
      · rw [show h.head - 1 + 2 = h.head + 1 by omega]
    refine ⟨h.current, by simp only [hfin, if_true], ⟨hN, ?_, ?_, ?_, ?_, ?_⟩⟩
    all_goals simp only [ValueHasher.rollBack, hfin, if_true]
    · exact hcap
    · exact hslots
    · split <;> omega
    · rw [hlog]
      exact .gap rfl (by rw [hnext]; exact htail)
    · rw [hlog]
      exact hwin
  | gap hfin htail =>
    -- a ring with a gap has tail `head + 2`, not `head + 1`
    exfalso
    have hg : h.tail = (h.head + 1) % N := by simpa [NoGap, hfin] using hgap
    have hinj := offset_inj (show 0 < N by omega) (show 1 < N by omega)
      (show (h.head + 1 + 0) % N = (h.head + 1 + 1) % N by rw [Nat.add_zero, ← hg, htail])
    grind

/-- The record before the newest one is in the slot behind the head, and the silent branch of
`current_and_previous_val` is not taken. -/
theorem currentAndPreviousVal (hr : RingOf N h log) {older : List HashedValue}
    {before now : HashedValue} (hlog : log = older ++ [before, now]) :
    h.currentAndPreviousVal = some (some now, some before) := by
  have hN := hr.two_le
  have hlt := hr.head_lt
  have hlen : log.length = older.length + 2 := by rw [hlog]; simp
  have hnow : h.slot = some now := by rw [hr.slot_eq, hlog]; simp
  have hprev : h.hashedValues[(h.tail + older.length) % N]? = some before := by
    have hg := getElem?_window h.hashedValues h.tail
      (show older.length < log.length by omega) (hr.slots ▸ hr.length_le)
    rw [hr.live, hr.slots, hlog] at hg
    rw [← hg, List.getElem?_append_right (Nat.le_refl _), Nat.sub_self]
    rfl
  -- the offsets of the two newest slots differ by one
  have hidx : (h.tail + older.length + 1) % N = h.head := by
    rw [← hr.head_eq, hlen]
    rfl
  by_cases hzero : h.head = 0
  · have hfin : h.ringFinished = true := by
      generalize hl : log.length = len at hlen
      have hs := hr.shape
      rw [hl] at hs
      cases hs with
      | filling _ _ _ => omega
      | full hfin _ => exact hfin
      | gap hfin _ => exact hfin
    have hpos : (h.tail + older.length) % N = N - 1 := by
      have hmod := Nat.mod_lt (h.tail + older.length) (show 0 < N by omega)
      by_contra hne
      rw [Nat.add_mod, Nat.mod_eq_of_lt (show 1 < N by omega),
        Nat.mod_eq_of_lt (by omega), hzero] at hidx
      grind
    have hsub : checkedSub h.capacity 1 = some (N - 1) := by
      rw [checkedSub, if_pos (by rw [hr.capacity]; omega), hr.capacity]
    rw [hpos] at hprev
    simp [ValueHasher.currentAndPreviousVal, hzero, hfin, hsub, hnow, hprev]
  · have hpos : (h.tail + older.length) % N = h.head - 1 := by
      have hmod := Nat.mod_lt (h.tail + older.length) (show 0 < N by omega)
      rw [Nat.add_mod, Nat.mod_eq_of_lt (show 1 < N by omega)] at hidx
      by_cases hwrap : (h.tail + older.length) % N + 1 < N
      · rw [Nat.mod_eq_of_lt hwrap] at hidx
        grind
      · rw [show (h.tail + older.length) % N + 1 = N by omega, Nat.mod_self] at hidx
        grind
    have hsub : checkedSub h.head 1 = some (h.head - 1) := by
      rw [checkedSub, if_pos (by omega)]
    rw [hpos] at hprev
    simp [ValueHasher.currentAndPreviousVal, hzero, hsub, hnow, hprev]

theorem currentVal (hr : RingOf N h log) {now : HashedValue} (hlog : log.getLast? = some now) :
    h.currentVal = some (some now, none) := by
  simp [ValueHasher.currentVal, hr.slot_eq, hlog]

end RingOf

/-! ## Flags -/

/-- The flags of `h` stand for the abstract state; the newest records of the log are the ones the
state names. -/
inductive Control (N : Nat) (h : ValueHasher) (log : List HashedValue) : Dedup → Prop where
  | normal {slot : HashedValue} : h.state = .normal → log.getLast? = some slot →
      Control N h log (.normal slot h.isResolvingDuplicate h.lastEmittedTs)
  | inFail {older : List HashedValue} {slot failure : HashedValue} : h.state = .inFail →
      log = older ++ [slot, failure] → failure.isFailure = true → NoGap N h →
      Control N h log (.inFail slot h.isResolvingDuplicate h.lastEmittedTs failure.timestamp)
  | failReported : h.state = .failReported → Control N h log .failReported

/-- The ring `h` is the abstract history `a`. -/
structure Represents (N : Nat) (h : ValueHasher) (a : History) : Prop where
  ring : RingOf N h a.log
  stable : h.stableDelta = STABLE_DELTA
  failure : h.failureDelta = FAILURE_DELTA
  control : Control N h a.log a.dedup

/-- The outcome of a method is the outcome of an abstract move. -/
def Matches (N : Nat) (log : List HashedValue) (move : Move)
    (outcome : Option (ValueHasher × Emission)) : Prop :=
  ∃ h' e, outcome = some (h', e) ∧ Emission.records e = move.saved ∧
    Represents N h' ⟨move.next, move.ops.foldl (LogOp.apply N) log⟩

@[simp] theorem records_void : Emission.records ValueHasher.void = [] := rfl

@[simp] theorem records_now (now : HashedValue) : Emission.records (some now, none) = [now] := rfl

@[simp] theorem records_both (now before : HashedValue) :
    Emission.records (some now, some before) = [before, now] := rfl

section Methods

variable {N : Nat} {h : ValueHasher} {log : List HashedValue}

/-- Refreshing is writing the newest record. -/
theorem refresh_eq {slot : HashedValue} (timestamp : Int) (hlast : log.getLast? = some slot) :
    LogOp.apply N log (.refresh timestamp) = log.dropLast ++ [{ slot with timestamp }] := by
  obtain ⟨older, rfl⟩ := List.getLast?_eq_some_iff.mp hlast
  rw [LogOp.apply, List.modifyLast_concat, List.dropLast_concat]

/-- The state after a good sample was pushed and saved. -/
theorem push_represents (hr : RingOf N h log) (hs : h.stableDelta = STABLE_DELTA)
    (hf : h.failureDelta = FAILURE_DELTA) (v : HashedValue) :
    ∃ h', h.advance.goAhead.setSlot v = some h' ∧ SameFlags h h' ∧
      Represents N
        { h' with lastEmittedTs := v.timestamp, isResolvingDuplicate := false, state := .normal }
        ⟨.start v, push N log v⟩ := by
  obtain ⟨h', hpush, hr', -, hflags⟩ := hr.push v
  refine ⟨h', hpush, hflags, hr'.flags _ _ _, hflags.stableDelta.trans hs,
    hflags.failureDelta.trans hf, .normal rfl ?_⟩
  exact getLast?_push (by have := hr.two_le; omega) log v

/-- A good sample in the normal state. -/
theorem addNormal_matches (hr : RingOf N h log) (hs : h.stableDelta = STABLE_DELTA)
    (hf : h.failureDelta = FAILURE_DELTA) (hstate : h.state = .normal) {slot : HashedValue}
    (hlast : log.getLast? = some slot) (v : HashedValue) :
    Matches N log (Dedup.good slot h.isResolvingDuplicate h.lastEmittedTs v)
      (h.addNormal v.val v.timestamp) := by
  have hslot : h.slot = some slot := by rw [hr.slot_eq, hlast]
  obtain ⟨h', hpush, hflags, hrep⟩ := push_represents hr hs hf v
  have hstate' : h'.state = .normal := hflags.state.trans hstate
  have hlast' : (push N log v).getLast? = some v :=
    getLast?_push (by have := hr.two_le; omega) log v
  by_cases heq : (slot.val == v.val) = true
  · by_cases hold : v.timestamp - h.lastEmittedTs > STABLE_DELTA
    · -- heartbeat
      have hold' : v.timestamp - h.lastEmittedTs > h.stableDelta := hs ▸ hold
      rw [Dedup.good_heartbeat heq hold]
      refine ⟨_, (some v, none), ?_, rfl, hrep⟩
      simp [ValueHasher.addNormal, hslot, heq, hold', hpush, hrep.ring.currentVal hlast', hstate']
    · -- silent duplicate
      have hold' : ¬v.timestamp - h.lastEmittedTs > h.stableDelta := hs ▸ hold
      rw [Dedup.good_duplicate heq hold]
      obtain ⟨h₁, hset, hr₁, hflags₁⟩ :=
        (hr.flags h.state h.lastEmittedTs true).setSlot { slot with timestamp := v.timestamp }
      rw [← refresh_eq (N := N) v.timestamp hlast] at hr₁
      have hc : Control N h₁ (LogOp.apply N log (.refresh v.timestamp))
          (.normal { slot with timestamp := v.timestamp } h₁.isResolvingDuplicate
            h₁.lastEmittedTs) :=
        .normal (hflags₁.state.trans hstate)
          (by rw [refresh_eq v.timestamp hlast, List.getLast?_concat])
      rw [hflags₁.isResolvingDuplicate, hflags₁.lastEmittedTs] at hc
      refine ⟨h₁, ValueHasher.void, ?_, rfl,
        ⟨hr₁, hflags₁.stableDelta.trans hs, hflags₁.failureDelta.trans hf, hc⟩⟩
      simp [ValueHasher.addNormal, hslot, heq, hold', hset]
  · rw [Dedup.good_change heq]
    by_cases hpend : h.isResolvingDuplicate = true
    · -- the record before the new one is the slot that was not saved
      obtain ⟨older, hlog⟩ := List.getLast?_eq_some_iff.mp hlast
      obtain ⟨k, htwo⟩ := push_concat hr.two_le older slot v
      rw [← hlog] at htwo
      refine ⟨_, (some v, some slot), ?_, by simp [hpend, Dedup.before], hrep⟩
      simp [ValueHasher.addNormal, hslot, heq, hpush, hflags.isResolvingDuplicate, hpend,
        hrep.ring.currentAndPreviousVal htwo, hstate']
    · have hnot : h'.isResolvingDuplicate = false := by
        rw [hflags.isResolvingDuplicate]
        simpa using hpend
      refine ⟨_, (some v, none), ?_, by simp [hpend, Dedup.before], hrep⟩
      simp [ValueHasher.addNormal, hslot, heq, hpush, hnot, hrep.ring.currentVal hlast', hstate']

/-- A good sample after failures that were not reported: they are noise. -/
theorem addAfterNoice_matches (hr : RingOf N h log) (hs : h.stableDelta = STABLE_DELTA)
    (hf : h.failureDelta = FAILURE_DELTA) {older : List HashedValue} {slot failure : HashedValue}
    (hlog : log = older ++ [slot, failure]) (hgap : NoGap N h) (v : HashedValue) :
    Matches N log.dropLast (Dedup.good slot h.isResolvingDuplicate h.lastEmittedTs v)
      (h.addAfterNoice v.val v.timestamp) := by
  obtain ⟨current, hcur, hback⟩ :=
    (hr.flags .normal h.lastEmittedTs h.isResolvingDuplicate).rollBack hgap
  have hlast : log.dropLast.getLast? = some slot := by
    rw [hlog, show older ++ [slot, failure] = older ++ [slot] ++ [failure] by simp,
      List.dropLast_concat, List.getLast?_concat]
  have hadd : h.addAfterNoice v.val v.timestamp =
      ({ h with state := .normal, current } : ValueHasher).rollBack.addNormal v.val v.timestamp := by
    have hcur' : (if h.ringFinished then some h.current else checkedSub h.current 1) =
      some current := hcur
    unfold ValueHasher.addAfterNoice
    cases hfin : h.ringFinished with
    | true =>
        have hsame : h.current = current := by simpa [hfin] using hcur'
        simp [hsame]
    | false =>
        have hsub : checkedSub h.current 1 = some current := by simpa [hfin] using hcur'
        simp [hsub]
  rw [hadd]
  -- a roll-back moves the head only
  have hflags : SameFlags ({ h with state := .normal, current } : ValueHasher)
      ({ h with state := .normal, current } : ValueHasher).rollBack := by
    unfold ValueHasher.rollBack
    split <;> exact ⟨rfl, rfl, rfl, rfl, rfl⟩
  have hm := addNormal_matches hback (hflags.stableDelta.trans hs) (hflags.failureDelta.trans hf)
    hflags.state hlast v
  rwa [hflags.isResolvingDuplicate, hflags.lastEmittedTs] at hm

/-- A good sample after a reported outage. -/
theorem cleanFailReport_matches (hr : RingOf N h log) (hs : h.stableDelta = STABLE_DELTA)
    (hf : h.failureDelta = FAILURE_DELTA) (v : HashedValue) :
    Matches N log ⟨.start v, [.push v], [v]⟩ (h.cleanFailReport v.val v.timestamp) := by
  obtain ⟨h', hpush, hflags, hrep⟩ :=
    push_represents (hr.flags .normal h.lastEmittedTs false) hs hf v
  have hlast' : (push N log v).getLast? = some v :=
    getLast?_push (by have := hr.two_le; omega) log v
  refine ⟨_, (some v, none), ?_, rfl, hrep⟩
  simp [ValueHasher.cleanFailReport, hpush, hflags.isResolvingDuplicate, hflags.state,
    hrep.ring.currentVal hlast']

/-- A failure after a good sample takes a slot of its own, which names the start of the outage. -/
theorem addFail_starts (hr : RingOf N h log) (hs : h.stableDelta = STABLE_DELTA)
    (hf : h.failureDelta = FAILURE_DELTA) (hstate : h.state = .normal) {slot : HashedValue}
    (hlast : log.getLast? = some slot) {v : HashedValue} (hv : v.isFailure = true) :
    Matches N log ((Dedup.normal slot h.isResolvingDuplicate h.lastEmittedTs).step v)
      (h.addFail v.val v.timestamp) := by
  obtain ⟨h', hpush, hr', hgap', hflags⟩ := hr.push v
  have hr'' := hr'.flags .inFail h'.lastEmittedTs h'.isResolvingDuplicate
  have hslot' : ({ h' with state := .inFail } : ValueHasher).slot = some v := by
    show h'.slot = some v
    rw [hr'.slot_eq, getLast?_push (by have := hr.two_le; omega)]
  obtain ⟨older, hlog⟩ := List.getLast?_eq_some_iff.mp hlast
  obtain ⟨k, htwo⟩ := push_concat hr.two_le older slot v
  rw [← hlog] at htwo
  have hnonneg : ¬h'.failureDelta < 0 := by
    rw [hflags.failureDelta, hf]
    decide
  rw [Dedup.step_begins hv]
  refine ⟨{ h' with state := .inFail }, ValueHasher.void, ?_, rfl,
    ⟨hr'', hflags.stableDelta.trans hs, hflags.failureDelta.trans hf, ?_⟩⟩
  · simp [ValueHasher.addFail, hstate, hpush, hslot', hnonneg]
  · rw [← hflags.isResolvingDuplicate, ← hflags.lastEmittedTs]
    exact .inFail (h := { h' with state := .inFail }) rfl htwo hv hgap'

/-- An outage that lasts is reported, with the record before it if that waits. -/
theorem addFail_reports (hr : RingOf N h log) (hs : h.stableDelta = STABLE_DELTA)
    (hf : h.failureDelta = FAILURE_DELTA) (hstate : h.state = .inFail) {older : List HashedValue}
    {slot failure : HashedValue} (hlog : log = older ++ [slot, failure])
    (hfail : failure.isFailure = true) {v : HashedValue} (hv : v.isFailure = true)
    (hlong : v.timestamp - failure.timestamp > FAILURE_DELTA) :
    Matches N log
      ((Dedup.inFail slot h.isResolvingDuplicate h.lastEmittedTs failure.timestamp).step v)
      (h.addFail v.val v.timestamp) := by
  have hlast : log.getLast? = some failure := by rw [hlog]; simp
  have hslot : h.slot = some failure := by rw [hr.slot_eq, hlast]
  have hlong' : v.timestamp - failure.timestamp > h.failureDelta := hf ▸ hlong
  have hnow : ({ failure with timestamp := v.timestamp } : HashedValue) = v := by
    rw [Binary64.beq_MIN.mp hfail, ← Binary64.beq_MIN.mp hv]
  obtain ⟨h₁, hset, hr₁, hflags₁⟩ := hr.setSlot { failure with timestamp := v.timestamp }
  rw [← refresh_eq (N := N) v.timestamp hlast] at hr₁
  have htwo : LogOp.apply N log (.refresh v.timestamp) = older ++ [slot, v] := by
    rw [refresh_eq v.timestamp hlast, hnow, hlog,
      show older ++ [slot, failure] = older ++ [slot] ++ [failure] by simp, List.dropLast_concat]
    simp
  rw [Dedup.step_reports hv hlong]
  have hr₂ := hr₁.flags .failReported h₁.lastEmittedTs false
  cases hpend : h.isResolvingDuplicate with
  | true =>
      refine ⟨_, (some v, some slot), ?_, by simp [Dedup.before],
        ⟨hr₂, hflags₁.stableDelta.trans hs, hflags₁.failureDelta.trans hf, .failReported rfl⟩⟩
      simp [ValueHasher.addFail, hstate, hslot, hlong', hset, hflags₁.isResolvingDuplicate, hpend,
        hr₂.currentAndPreviousVal htwo]
  | false =>
      have hlast₁ : (LogOp.apply N log (.refresh v.timestamp)).getLast? = some v := by
        rw [htwo]; simp
      refine ⟨_, (some v, none), ?_, by simp [Dedup.before],
        ⟨hr₂, hflags₁.stableDelta.trans hs, hflags₁.failureDelta.trans hf, .failReported rfl⟩⟩
      simp [ValueHasher.addFail, hstate, hslot, hlong', hset, hflags₁.isResolvingDuplicate, hpend,
        hr₂.currentVal hlast₁]

/-- A failure. -/
theorem addFail_matches {a : History} (hrep : Represents N h a) {v : HashedValue}
    (hv : v.isFailure = true) :
    Matches N a.log (a.dedup.step v) (h.addFail v.val v.timestamp) := by
  obtain ⟨hr, hs, hf, hc⟩ := hrep
  generalize hd : a.dedup = d at hc ⊢
  cases hc with
  | normal hstate hlast => exact addFail_starts hr hs hf hstate hlast hv
  | @inFail older slot failure hstate hlog hfail hgap =>
      by_cases hlong : v.timestamp - failure.timestamp > FAILURE_DELTA
      · exact addFail_reports hr hs hf hstate hlog hfail hv hlong
      · have hslot : h.slot = some failure := by rw [hr.slot_eq, hlog]; simp
        have hshort : ¬v.timestamp - failure.timestamp > h.failureDelta := hf ▸ hlong
        rw [Dedup.step_waits hv hlong]
        refine ⟨h, ValueHasher.void, ?_, rfl, ⟨hr, hs, hf, .inFail hstate hlog hfail hgap⟩⟩
        simp [ValueHasher.addFail, hstate, hslot, hshort]
  | failReported hstate =>
      rw [Dedup.step_lasts hv]
      refine ⟨h, ValueHasher.void, ?_, rfl, ⟨hr, hs, hf, .failReported hstate⟩⟩
      simp [ValueHasher.addFail, hstate]

/-- **One sample.** `add` does not panic, emits what the abstract machine emits and ends in a ring
that stands for the next abstract history. -/
theorem add_matches {a : History} (hrep : Represents N h a) (v : HashedValue) :
    Matches N a.log (a.dedup.step v) (h.add v.val v.timestamp) := by
  cases hv : v.isFailure with
  | true =>
      have hval : (v.val == Binary64.MIN) = true := hv
      rw [ValueHasher.add, if_pos hval]
      exact addFail_matches hrep hv
  | false =>
      have hval : ¬(v.val == Binary64.MIN) = true := by
        simpa [HashedValue.isFailure] using hv
      rw [ValueHasher.add, if_neg hval]
      obtain ⟨hr, hs, hf, hc⟩ := hrep
      generalize a.dedup = d at hc ⊢
      cases hc with
      | normal hstate hlast =>
          have hm := addNormal_matches hr hs hf hstate hlast v
          rw [Dedup.step_normal hv]
          simpa [hstate] using hm
      | inFail hstate hlog _ hgap =>
          have hm := addAfterNoice_matches hr hs hf hlog hgap v
          rw [Dedup.step_noise hv]
          simpa [hstate, Matches, LogOp.apply] using hm
      | failReported hstate =>
          have hm := cleanFailReport_matches hr hs hf v
          rw [Dedup.step_returns hv]
          simpa [hstate] using hm

theorem feed_represents {a : History} (hrep : Represents N h a) (v : HashedValue) :
    ∃ h', h.feed v = some (h', (a.add N v).2) ∧ Represents N h' (a.add N v).1 := by
  obtain ⟨h', e, hadd, hsaved, hrep'⟩ := add_matches hrep v
  exact ⟨h', by rw [ValueHasher.feed, hadd, Option.map_some, hsaved]; rfl, hrep'⟩

/-- The ring of a first sample. -/
theorem new_represents (hN : 2 ≤ N) (v : HashedValue) :
    ∃ h, ValueHasher.new N v.val v.timestamp = some h ∧ Represents N h (.start v) := by
  refine ⟨_, by rw [ValueHasher.new, if_pos (by rw [List.length_replicate]; omega)],
    ⟨hN, rfl, ?_, by simp only; omega, .filling rfl rfl rfl, ?_⟩, rfl, rfl, .normal rfl rfl⟩
  · rw [List.length_set, List.length_replicate]
  · obtain ⟨n, rfl⟩ : ∃ n, N = n + 1 := ⟨N - 1, by omega⟩
    simp [window, List.replicate_succ, History.start]

/-- **Refinement over runs.** From the first sample on, the ring never panics, saves what the
abstract history saves and stands for it. -/
theorem run_represents (hN : 2 ≤ N) (first : HashedValue) (rest : List HashedValue) :
    ∃ h₀ h, ValueHasher.new N first.val first.timestamp = some h₀ ∧
      Transducer.runM ValueHasher.feed h₀ rest =
        some (h, (Transducer.run (History.add N) (.start first) rest).2) ∧
      Represents N h (Transducer.run (History.add N) (.start first) rest).1 := by
  obtain ⟨h₀, hnew, hrep⟩ := new_represents hN first
  obtain ⟨h, hrun, hrep'⟩ := Transducer.simulation (R := fun h a => Represents N h a)
    (fun h a v hR => feed_represents hR v) hrep rest
  exact ⟨h₀, h, hnew, hrun, hrep'⟩

end Methods

/-! ## The live window -/

/-- The slots from `tail` to `head` in ring order, as `get_hashed` counts them. -/
def ValueHasher.liveWindow (h : ValueHasher) : List HashedValue :=
  window h.hashedValues h.tail ((h.head + h.capacity - h.tail) % h.capacity + 1)

theorem RingOf.liveLen {N : Nat} {h : ValueHasher} {log : List HashedValue} (hr : RingOf N h log) :
    (h.head + h.capacity - h.tail) % h.capacity + 1 = log.length := by
  have hN := hr.two_le
  have hlt := hr.head_lt
  rw [hr.capacity]
  generalize hlen : log.length = len
  have hs := hr.shape
  rw [hlen] at hs
  cases hs with
  | filling _ htail _ => rw [htail, Nat.sub_zero, Nat.add_mod_right, Nat.mod_eq_of_lt hlt]
  | full _ htail =>
      rw [htail]
      by_cases hend : h.head + 1 = N
      · rw [hend, Nat.mod_self, Nat.sub_zero, Nat.add_mod_right, Nat.mod_eq_of_lt hlt, hend]
      · rw [Nat.mod_eq_of_lt (show h.head + 1 < N by omega),
          show h.head + N - (h.head + 1) = N - 1 by omega, Nat.mod_eq_of_lt (by omega)]
        grind
  | gap _ htail =>
      rw [htail]
      by_cases hend : N ≤ h.head + 2
      · have hwrap : (h.head + 2) % N = h.head + 2 - N := by
          rw [Nat.mod_eq_sub_mod hend, Nat.mod_eq_of_lt (by omega)]
        rw [hwrap, show h.head + N - (h.head + 2 - N) = N - 2 + N by omega, Nat.add_mod_right,
          Nat.mod_eq_of_lt (by omega)]
        grind
      · rw [Nat.mod_eq_of_lt (show h.head + 2 < N by omega),
          show h.head + N - (h.head + 2) = N - 2 by omega, Nat.mod_eq_of_lt (by omega)]
        grind

/-- Once the ring has wrapped, the tail is one slot past the head, or two after a roll-back. -/
theorem RingOf.tail_eq {N : Nat} {h : ValueHasher} {log : List HashedValue} (hr : RingOf N h log)
    (hfin : h.ringFinished = true) : h.tail = (h.head + 1) % N ∨ h.tail = (h.head + 2) % N := by
  generalize hlen : log.length = len
  have hs := hr.shape
  rw [hlen] at hs
  cases hs with
  | filling hnot _ _ => rw [hfin] at hnot; exact absurd hnot (by decide)
  | full _ htail => exact .inl htail
  | gap _ htail => exact .inr htail

theorem RingOf.liveWindow_eq {N : Nat} {h : ValueHasher} {log : List HashedValue}
    (hr : RingOf N h log) : h.liveWindow = log := by
  rw [ValueHasher.liveWindow, hr.liveLen, hr.live]

/-- What one sample may do to a bounded list. -/
inductive OneUpdate (N : Nat) (v : HashedValue) (log : List HashedValue) :
    List HashedValue → Prop where
  | nothing : OneUpdate N v log log
  | refresh : OneUpdate N v log (log.modifyLast fun r => { r with timestamp := v.timestamp })
  | push : OneUpdate N v log (CyclicWindow.push N log v)

theorem good_update (N : Nat) (log : List HashedValue) (slot : HashedValue) (pending : Bool)
    (last : Int) (v : HashedValue) :
    OneUpdate N v log ((Dedup.good slot pending last v).ops.foldl (LogOp.apply N) log) := by
  by_cases heq : (slot.val == v.val) = true
  · by_cases hold : v.timestamp - last > STABLE_DELTA
    · rw [Dedup.good_heartbeat heq hold]
      exact .push
    · rw [Dedup.good_duplicate heq hold]
      exact .refresh
  · rw [Dedup.good_change heq]
    exact .push

/-- A sample updates the list once, after the last record was taken back if it is an unreported
failure that the sample ends. -/
theorem Represents.add_update {N : Nat} {h : ValueHasher} {a : History} (hrep : Represents N h a)
    (v : HashedValue) :
    ∃ base, (base = a.log ∨
        ∃ failure, h.state = .inFail ∧ failure.isFailure = true ∧ a.log = base ++ [failure]) ∧
      OneUpdate N v base (a.add N v).1.log := by
  obtain ⟨-, -, -, hc⟩ := hrep
  obtain ⟨d, log⟩ := a
  cases hc with
  | @normal slot hstate _ =>
      refine ⟨log, .inl rfl, ?_⟩
      cases hv : v.isFailure with
      | true =>
          rw [History.add, Dedup.step_begins hv]
          exact .push
      | false =>
          rw [History.add, Dedup.step_normal hv]
          exact good_update N log _ _ _ v
  | @inFail older slot failure hstate hlog hfail _ =>
      cases hv : v.isFailure with
      | true =>
          refine ⟨log, .inl rfl, ?_⟩
          by_cases hlong : v.timestamp - failure.timestamp > FAILURE_DELTA
          · rw [History.add, Dedup.step_reports hv hlong]
            exact .refresh
          · rw [History.add, Dedup.step_waits hv hlong]
            exact .nothing
      | false =>
          have hlog' : log = log.dropLast ++ [failure] := by
            rw [show log = older ++ [slot] ++ [failure] by simpa using hlog, List.dropLast_concat]
          refine ⟨log.dropLast, .inr ⟨failure, hstate, hfail, hlog'⟩, ?_⟩
          rw [History.add, Dedup.step_noise hv]
          exact good_update N log.dropLast slot h.isResolvingDuplicate h.lastEmittedTs v
  | failReported hstate =>
      refine ⟨log, .inl rfl, ?_⟩
      cases hv : v.isFailure with
      | true =>
          rw [History.add, Dedup.step_lasts hv]
          exact .nothing
      | false =>
          rw [History.add, Dedup.step_returns hv]
          exact .push

/-- After the samples `first :: rest` the ring has not panicked and its live window is the bounded
list; once it wrapped, the tail is one or two slots past the head; and one more sample does to the
window what it does to the list. -/
def RefinesBoundedList (N : Nat) (first : HashedValue) (rest : List HashedValue) : Prop :=
  ∃ h₀ h saved, ValueHasher.new N first.val first.timestamp = some h₀ ∧
    Transducer.runM ValueHasher.feed h₀ rest = some (h, saved) ∧
    h.liveWindow = (Transducer.run (History.add N) (.start first) rest).1.log ∧
    h.liveWindow.length ≤ N ∧
    (h.ringFinished = true → h.tail = (h.head + 1) % N ∨ h.tail = (h.head + 2) % N) ∧
    ∀ v, ∃ h' saved', h.feed v = some (h', saved') ∧
      ∃ base, (base = h.liveWindow ∨
          ∃ failure, h.state = .inFail ∧ failure.isFailure = true ∧
            h.liveWindow = base ++ [failure]) ∧
        OneUpdate N v base h'.liveWindow

/-- **Ring refinement.** -/
theorem ring_refines_bounded_list (N : Nat) (hN : 2 ≤ N) (first : HashedValue)
    (rest : List HashedValue) : RefinesBoundedList N first rest := by
  obtain ⟨h₀, h, hnew, hrun, hrep⟩ := run_represents hN first rest
  have hlive := hrep.ring.liveWindow_eq
  refine ⟨h₀, h, _, hnew, hrun, hlive, ?_, hrep.ring.tail_eq, ?_⟩
  · rw [hlive]
    exact hrep.ring.length_le
  · intro v
    obtain ⟨h', hfeed, hrep'⟩ := feed_represents hrep v
    obtain ⟨base, hbase, hupdate⟩ := hrep.add_update v
    refine ⟨h', _, hfeed, base, ?_, ?_⟩
    · rwa [hlive]
    · rwa [hrep'.ring.liveWindow_eq]

/-- The ring of two slots, wrapped by a failure that turns out to be noise. -/
theorem ring_refines_bounded_list_two :
    RefinesBoundedList 2 ⟨Binary64.ofInt 1, 1000⟩
      [⟨Binary64.ofInt 2, 1010⟩, ⟨Binary64.MIN, 1020⟩, ⟨Binary64.ofInt 2, 1030⟩] :=
  ring_refines_bounded_list 2 (by decide) _ _

end ModbusLogger.Hasher
