import ModbusLogger.Db.Hasher.Provenance
import ModbusLogger.Main.Delivery
import ModbusLogger.Reader.HotReload

/-!
# From the loops to the answers

The events that `measure_master` receives are those of the loops, so a point that is answered to the
API was sent by a loop.
-/

namespace ModbusLogger.Main

open Db Hasher ModbusLogger.Main.Topology

variable {J : Type}

/-- **Answers.** However the actors run, whatever requests stand between the events that
`measure_master` has handled, and however the flushes end: it never panics, and each point of its
answers is a sample that a loop sent for that value, or a row that the table had at the start. -/
theorem answers_sent (lib : Libraries J) (t : Tables J) (actions : List (Action J)) (capacity : Nat)
    (hcap : 2 ≤ capacity) (storage : Storage) (measures : List (Int × HashedValue))
    (msgs : List MeasureMsg) (hmsgs : eventsOf msgs <+: measuredEvents lib t actions) :
    ∃ m handed, MeasureMaster.run capacity storage measures msgs = some (m, handed) ∧
      ∀ req, ∃ result, m.readMeasure req = some result ∧ ∀ responses, result = .ok responses →
        responses.map MeasureResponse.id = req.valuesId ∧
          ∀ response ∈ responses,
            Sourced measures ((sentEvents lib t actions).filterMap device?) req response := by
  obtain ⟨m, handed, hrun, hanswers⟩ := answers_sourced hcap storage measures msgs
  refine ⟨m, handed, hrun, fun req => ?_⟩
  obtain ⟨result, hread, hresponses⟩ := hanswers req
  refine ⟨result, hread, fun responses hresult => ?_⟩
  obtain ⟨hids, hsourced⟩ := hresponses responses hresult
  have hpre := hmsgs.trans (measured_delivered lib t actions).inOrder
  exact ⟨hids, fun response hmem => (hsourced response hmem).mono hpre⟩

/-- The loop polls its device once, and the event comes to `measure_master`. -/
def polledOnce : List (Action Unit) :=
  deviceCreated ++ [.loop 0 .elapsed,
    .loopSendsEvent 0 (.deviceEvent ⟨.full, 1, [⟨Binary64.zero false, true, 7, "T", 1000⟩]⟩),
    .nodeMasterFromNode, .nodeMasterSends, .dataMasterFromReader, .dataMasterSends, .dataMasterSends,
    .dbMasterReceives, .dbMasterSends, .measuresReceive]

theorem answers_sent_polledOnce :
    ∃ m handed, MeasureMaster.run 3 confirming [] [firstSample] = some (m, handed) ∧
      ∀ req, ∃ result, m.readMeasure req = some result ∧ ∀ responses, result = .ok responses →
        responses.map MeasureResponse.id = req.valuesId ∧
          ∀ response ∈ responses,
            Sourced [] ((sentEvents noSettings oneNode polledOnce).filterMap device?) req response :=
  answers_sent noSettings oneNode polledOnce 3 (by decide) confirming [] [firstSample]
    (by decide +kernel)

end ModbusLogger.Main
