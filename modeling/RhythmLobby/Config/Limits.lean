/-!
# Times and rates

* `Timeouts`             how long the server waits for what;
* `FloodLimits`          how fast a client may send: a burst of packets, then one per period;
* `FloodLimits.allows`   whether a packet is accepted after a number of accepted ones, where no time
                         passes.
-/

namespace RhythmLobby

/-! ## Times -/

/-- Times in seconds, and the time for a write in milliseconds.  Writes do not read `writeMs`:
whether a write outlives it is said by the state of the line. -/
structure Timeouts where
  pingInterval : Nat
  pongTimeout : Nat
  writeMs : Nat
  login : Nat
  onlineCountInterval : Nat
  deriving DecidableEq

def Timeouts.standard : Timeouts := ⟨30, 90, 5000, 10, 5⟩

/-! ## Rates -/

/-- packets per second, packets at once, and how many refusals in a row end a connection -/
structure FloodLimits where
  rate : Nat
  burst : Nat
  maxViolations : Nat
  deriving DecidableEq

def FloodLimits.standard : FloodLimits := ⟨20, 40, 3⟩

namespace FloodLimits

/-- nanoseconds from one packet to the next; a rate of zero counts as one -/
def period (l : FloodLimits) : Nat := 1000000000 / max l.rate 1

/-- whether a packet is accepted when `accepted` others have been, all at one moment; a burst of
zero counts as one, and without a period nothing is ever refused -/
def allows (l : FloodLimits) (accepted : Nat) : Bool := l.period == 0 || accepted < max l.burst 1

/-- the verdicts on a number of packets that arrive at one moment -/
def verdicts (l : FloodLimits) (packets : Nat) : List Bool := (List.range packets).map l.allows

end FloodLimits
end RhythmLobby
