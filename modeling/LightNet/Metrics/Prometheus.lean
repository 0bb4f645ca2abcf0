/-
# LightNet.Metrics.Prometheus — the counters of `Metrics`, and the text of `export_prometheus`.

Each call adds to one counter or is observed by one histogram.  What is exported after a run of calls
is therefore, counter by counter, the sum of what the calls add to it modulo `2^64`, and the cumulative
histograms of the values that were recorded, in whatever order they came.
-/
import LightNet.Metrics.Histogram

namespace LightNet

open LightNet.Foundation LightNet.Metrics

/-- `lightnet::Metrics`. -/
structure Metrics where
  connectionsTotal : UInt64 := 0
  activeConnections : UInt64 := 0
  bytesRead : UInt64 := 0
  bytesWritten : UInt64 := 0
  requestsTotal : UInt64 := 0
  requestLatency : Histogram := {}
  eventLoopLag : Histogram := {}

namespace Metrics

/-- A call of one of the methods that record something. -/
inductive Call where
  | incConnectionsTotal
  | decActiveConnections
  | incActiveConnections
  | addBytesRead (n : UInt64)
  | addBytesWritten (n : UInt64)
  | incRequests
  | recordRequestLatencyUs (us : UInt64)
  | recordEventLoopLagUs (us : UInt64)
  deriving DecidableEq

/-- What the call does. -/
def step (m : Metrics) : Call → Metrics
  | .incConnectionsTotal => { m with connectionsTotal := m.connectionsTotal + 1 }
  | .decActiveConnections => { m with activeConnections := m.activeConnections - 1 }
  | .incActiveConnections => { m with activeConnections := m.activeConnections + 1 }
  | .addBytesRead n => { m with bytesRead := m.bytesRead + n }
  | .addBytesWritten n => { m with bytesWritten := m.bytesWritten + n }
  | .incRequests => { m with requestsTotal := m.requestsTotal + 1 }
  | .recordRequestLatencyUs us => { m with requestLatency := m.requestLatency.observe us }
  | .recordEventLoopLagUs us => { m with eventLoopLag := m.eventLoopLag.observe us }

/-- The two lines of a counter or a gauge. -/
def scalarText (name kind : String) (n : UInt64) : Bytes :=
  literal "# TYPE " ++ literal name ++ literal " " ++ literal kind ++ literal "\n"
    ++ literal name ++ literal " " ++ decimal n.toNat ++ literal "\n"

/-- `export_prometheus()`. -/
def exportPrometheus (m : Metrics) : Bytes :=
  let out := scalarText "lightnet_connections_total" "counter" m.connectionsTotal
    ++ scalarText "lightnet_active_connections" "gauge" m.activeConnections
    ++ scalarText "lightnet_bytes_read_total" "counter" m.bytesRead
    ++ scalarText "lightnet_bytes_written_total" "counter" m.bytesWritten
    ++ scalarText "lightnet_requests_total" "counter" m.requestsTotal
  let out := m.requestLatency.exportTo out (literal "lightnet_request_latency_us")
  m.eventLoopLag.exportTo out (literal "lightnet_event_loop_lag_us")

/-! ## What each call counts for -/

namespace Call

/-- What the call adds to `connections_total_`. -/
def connections : Call → UInt64
  | incConnectionsTotal => 1
  | _ => 0

/-- Closing takes one off. -/
def active : Call → UInt64
  | incActiveConnections => 1
  | decActiveConnections => -1
  | _ => 0

/-- What the call adds to `bytes_read_`. -/
def bytesIn : Call → UInt64
  | addBytesRead n => n
  | _ => 0

/-- What the call adds to `bytes_written_`. -/
def bytesOut : Call → UInt64
  | addBytesWritten n => n
  | _ => 0

/-- What the call adds to `requests_total_`. -/
def requests : Call → UInt64
  | incRequests => 1
  | _ => 0

/-- The latency that the call observes. -/
def latency? : Call → Option UInt64
  | recordRequestLatencyUs us => some us
  | _ => none

/-- The lag that the call observes. -/
def lag? : Call → Option UInt64
  | recordEventLoopLagUs us => some us
  | _ => none

end Call

/-! ## After a run -/

/-- A counter that each call adds to holds the sum over the calls. -/
theorem run_counter {counter : Metrics → UInt64} {adds : Call → UInt64}
    (hstep : ∀ m c, counter (step m c) = counter m + adds c) (m : Metrics) (calls : List Call) :
    counter (run step m calls) = counter m + (calls.map adds).sum := by
  induction calls generalizing m with
  | nil => exact (UInt64.add_zero _).symm
  | cons c calls ih => rw [run_cons, ih, hstep, List.map_cons, List.sum_cons, UInt64.add_assoc]

/-- A histogram that some calls are observed by has observed the values of these calls. -/
theorem run_histogram {histogram : Metrics → Histogram} {value? : Call → Option UInt64}
    (hstep : ∀ m c, histogram (step m c) = run Histogram.observe (histogram m) (value? c).toList)
    (m : Metrics) (calls : List Call) :
    histogram (run step m calls)
      = run Histogram.observe (histogram m) (calls.filterMap value?) := by
  induction calls generalizing m with
  | nil => rfl
  | cons c calls ih =>
      have hsplit : (c :: calls).filterMap value? = (value? c).toList ++ calls.filterMap value? := by
        cases hc : value? c with
        | none => rw [List.filterMap_cons_none hc, Option.toList_none, List.nil_append]
        | some us => rw [List.filterMap_cons_some hc, Option.toList_some, List.singleton_append]
      rw [run_cons, ih, hstep, hsplit, run_append]

theorem requestLatency_run (calls : List Call) :
    (run step {} calls).requestLatency = Histogram.observed (calls.filterMap Call.latency?) :=
  run_histogram (fun _ c => by cases c <;> rfl) {} calls

theorem eventLoopLag_run (calls : List Call) :
    (run step {} calls).eventLoopLag = Histogram.observed (calls.filterMap Call.lag?) :=
  run_histogram (fun _ c => by cases c <;> rfl) {} calls

/-- **What is exported after a run of calls.** -/
theorem exportPrometheus_run (calls : List Call) :
    (run step {} calls).exportPrometheus
      = scalarText "lightnet_connections_total" "counter" (calls.map Call.connections).sum
        ++ scalarText "lightnet_active_connections" "gauge" (calls.map Call.active).sum
        ++ scalarText "lightnet_bytes_read_total" "counter" (calls.map Call.bytesIn).sum
        ++ scalarText "lightnet_bytes_written_total" "counter" (calls.map Call.bytesOut).sum
        ++ scalarText "lightnet_requests_total" "counter" (calls.map Call.requests).sum
        ++ (Exported.cumulative (calls.filterMap Call.latency?)).text
            (literal "lightnet_request_latency_us")
        ++ (Exported.cumulative (calls.filterMap Call.lag?)).text
            (literal "lightnet_event_loop_lag_us") := by
  have hcounter : ∀ {counter : Metrics → UInt64} {adds : Call → UInt64},
      (∀ m c, counter (step m c) = counter m + adds c) → counter {} = 0 →
        counter (run step {} calls) = (calls.map adds).sum := by
    intro counter adds hstep hzero
    rw [run_counter hstep, hzero, UInt64.zero_add]
  have hconnections : (run step {} calls).connectionsTotal = (calls.map Call.connections).sum := by
    refine hcounter (fun m c => ?_) rfl
    cases c <;> simp [step, Call.connections]
  have hactive : (run step {} calls).activeConnections = (calls.map Call.active).sum := by
    refine hcounter (fun m c => ?_) rfl
    cases c <;> simp [step, Call.active, UInt64.sub_eq_add_neg]
  have hread : (run step {} calls).bytesRead = (calls.map Call.bytesIn).sum := by
    refine hcounter (fun m c => ?_) rfl
    cases c <;> simp [step, Call.bytesIn]
  have hwritten : (run step {} calls).bytesWritten = (calls.map Call.bytesOut).sum := by
    refine hcounter (fun m c => ?_) rfl
    cases c <;> simp [step, Call.bytesOut]
  have hrequests : (run step {} calls).requestsTotal = (calls.map Call.requests).sum := by
    refine hcounter (fun m c => ?_) rfl
    cases c <;> simp [step, Call.requests]
  rw [exportPrometheus, Histogram.exportTo_eq, Histogram.exportTo_eq, requestLatency_run,
    eventLoopLag_run, Histogram.exported_observed, Histogram.exported_observed, hconnections, hactive,
    hread, hwritten, hrequests]

end Metrics

end LightNet
