import RhythmLobby.Number.Numeral

/-!
# Counts of what happened

Every happening worth counting is a `Happening`; a `Metrics` keeps them all, with the last values
of two gauges, and reports them as named samples.

* `Happening.sample`   the name of the counter a happening adds to;
* `Metrics.report`     the samples that are not zero.
-/

namespace RhythmLobby

/-- something that is counted -/
inductive Happening where
  | frameSent
  | sendFailed (kind : String)
  | cacheFailed (update : String)
  | sessionCreated
  | loginFailed (reason : String)
  | rateLimited
  | packetHandled (kind : String)
  | packetRefused (kind error : String)
  /-- a frame for this many sessions at once -/
  | fanOut (recipients : Nat)
  deriving DecidableEq

def labelled (name : String) (labels : List (String × String)) : String :=
  let pairs := labels.map fun (k, v) => k ++ "=\"" ++ v ++ "\""
  (name.push '{' ++ String.intercalate "," pairs).push '}'

/-- the upper ends of the groups in which sizes of fan-outs are counted -/
def fanOutBounds : List Nat := [1, 2, 4, 8, 16, 50, 100, 500, 1000]

/-- what a happening adds to which samples.  A fan-out counts in every group that is large enough
for it. -/
def Happening.samples : Happening → List (String × Nat)
  | .frameSent => [("rhythmd_packets_sent_total", 1)]
  | .sendFailed kind => [(labelled "rhythmd_send_failures_total" [("kind", kind)], 1)]
  | .cacheFailed update => [(labelled "rhythmd_cache_errors_total" [("op", update)], 1)]
  | .sessionCreated => [("rhythmd_sessions_created_total", 1)]
  | .loginFailed reason => [(labelled "rhythmd_login_failures_total" [("reason", reason)], 1)]
  | .rateLimited => [("rhythmd_rate_limited_total", 1)]
  | .packetHandled kind =>
    [(labelled "rhythmd_packets_total" [("packet", kind)], 1),
     (labelled "rhythmd_packet_duration_seconds_count" [("packet", kind)], 1)]
  | .packetRefused kind error =>
    [(labelled "rhythmd_packet_errors_total" [("error", error), ("packet", kind)], 1)]
  | .fanOut recipients =>
    let bounds := fanOutBounds.filter (recipients ≤ ·)
    let groups := bounds.map (fun n : Nat => wholeText n) ++ ["+Inf"]
    groups.map (fun le => (labelled "rhythmd_broadcast_fanout_bucket" [("le", le)], 1)) ++
      [("rhythmd_broadcast_fanout_sum", recipients), ("rhythmd_broadcast_fanout_count", 1)]

/-- all happenings in order, and the last values of the gauges -/
structure Metrics where
  happenings : List Happening
  connectedUsers : Nat
  activeRooms : Nat

namespace Metrics

def empty : Metrics := ⟨[], 0, 0⟩

def note (m : Metrics) (h : Happening) : Metrics := { m with happenings := m.happenings ++ [h] }

/-- adds to a sample, which is entered if it is new -/
def add (name : String) (n : Nat) : List (String × Nat) → List (String × Nat)
  | [] => [(name, n)]
  | (k, m) :: rest => if k = name then (k, m + n) :: rest else (k, m) :: add name n rest

def report (m : Metrics) : List (String × Nat) :=
  let counted := (m.happenings.flatMap Happening.samples).foldl
    (fun samples s => add s.1 s.2 samples) []
  let gauges :=
    [("rhythmd_connected_users", m.connectedUsers), ("rhythmd_active_rooms", m.activeRooms)]
  (counted ++ gauges).filter (·.2 ≠ 0)

end Metrics
end RhythmLobby
