import RhythmLobby.Config.Limits
import RhythmLobby.Task.Dispatch

/-!
# A client's connection

A connection begins with a login and then serves packets until the client is gone.  Time passes
only while nothing arrives.

* `Arrival`             what a client's stream brings;
* `firstText`           the first text, if it comes in time;
* `connect`             the login that a connection begins with;
* `Occurrence`          what a connection has to react to;
* `Session.serve`       a connection from login to teardown.
-/

namespace RhythmLobby

/-- what a client's stream brings; after the last arrival it ends -/
inductive Arrival where
  | text (frame : String)
  /-- a frame that is no text -/
  | other
  | close
  | failure
  /-- nothing for a number of milliseconds -/
  | wait (ms : Nat)
  /-- nothing any more -/
  | pending
  deriving DecidableEq

/-! ## Login -/

/-- the first text frame, where `elapsed` of `limit` milliseconds have passed -/
def firstText (limit : Nat) : Nat → List Arrival → Except LoginRefusal String
  | _, [] => .error .closed
  | _, .text frame :: _ => .ok frame
  | elapsed, .other :: rest => firstText limit elapsed rest
  | _, .close :: _ => .error .closed
  | _, .failure :: _ => .error .closed
  | elapsed, .wait ms :: rest =>
    if limit < elapsed + ms then .error .timeout else firstText limit (elapsed + ms) rest
  | _, .pending :: _ => .error .timeout

def credentials (frame : String) : Except LoginRefusal (String × String) :=
  match ClientPacket.decode frame with
  | .error e => .error (.undecodable e)
  | .ok (.login username password) => .ok (username, password)
  | .ok _ => .error .notLogin

def logIn (H : PasswordHasher) (stream : List Arrival) (token : String) (line : Nat) :
    Routine (Except LoginRefusal Session) := do
  let limit ← Routine.read fun h => h.timeouts.login * 1000
  match firstText limit 0 stream >>= credentials with
  | .error e => return .error e
  | .ok (username, password) =>
    match ← Routine.read (·.database.authenticate H username password) with
    | .error e => return .error (.database e)
    | .ok profile =>
      match ← login profile token line with
      | .error e => return .error (.registry e)
      | .ok s => return .ok s

/-- tells a client why it gets no session, and hangs up -/
def reject (e : LoginRefusal) (line : Nat) : Routine Unit := do
  Routine.emit (.note (.loginFailed e.reason))
  if let some p := e.reply then
    let _ ← Routine.emit (.offer p line)
  Routine.emit (.hangUp line)

/-- a login, or a rejection -/
def connect (H : PasswordHasher) (stream : List Arrival) (token : String) (line : Nat) :
    Routine (Except LoginRefusal Session) := do
  match ← logIn H stream token line with
  | .error e =>
    reject e line
    return .error e
  | .ok s => return .ok s

/-! ## Keeping alive -/

/-- what a connection has to react to -/
inductive Occurrence where
  | text (frame : String)
  /-- the keepalive timer -/
  | tick
  /-- the client is gone -/
  | gone
  deriving DecidableEq

/-- how many multiples of an interval lie after one moment and before another -/
def ticksBetween (interval start stop : Nat) : Nat := (stop - 1) / interval - start / interval

/-- what a stream makes a connection react to, where `elapsed` milliseconds have passed.  When
nothing comes any more, the next tick is the last thing that can happen. -/
def occurrences (interval : Nat) : Nat → List Arrival → List Occurrence
  | _, [] => [.gone]
  | elapsed, .text frame :: rest => .text frame :: occurrences interval elapsed rest
  | elapsed, .other :: rest => occurrences interval elapsed rest
  | _, .close :: _ => [.gone]
  | _, .failure :: _ => [.gone]
  | elapsed, .wait ms :: rest =>
    List.replicate (ticksBetween interval elapsed (elapsed + ms)) .tick ++
      occurrences interval (elapsed + ms) rest
  | _, .pending :: _ => [.tick]

def pongOverdue (t : Timeouts) (lastPong now : Int64) : Bool :=
  decide (((t.pongTimeout * 1000 : Nat) : Int) < now.toInt - lastPong.toInt)

namespace Session

/-- a tick of the keepalive timer; `false` if the connection has to end -/
def keepAlive (s : Session) : Routine Bool := do
  if (← Routine.read (·.directory.ofToken s.token)).isNone then return false
  let (overdue, now) ← Routine.read fun h =>
    (pongOverdue h.timeouts (h.stateOf s).lastPong h.clock, h.clock)
  if overdue then return false
  s.touchPing
  let _ ← s.send (.ping now)
  return true

def receive (s : Session) (frame : String) : Routine Unit := do
  match ClientPacket.decode frame with
  | .error e =>
    Routine.emit (.note (.packetRefused "undecodable" "protocol_error"))
    let _ ← s.send (Refusal.undecodable e).reply
  | .ok p =>
    match ← s.dispatch p with
    | .ok () => return ()
    | .error e =>
      let _ ← s.send e.reply

/-- Serves what occurs.  `verdicts` says which of the texts to come are accepted, and `violations`
of them were refused in a row so far. -/
def react (s : Session) (limits : FloodLimits) : List Bool → Nat → List Occurrence → Routine Unit
  | _, _, [] => return ()
  | _, _, .gone :: _ => return ()
  | verdicts, violations, .tick :: rest => do
    if ← s.keepAlive then react s limits verdicts violations rest else return ()
  | verdicts, violations, .text frame :: rest => do
    if verdicts.headD true then
      s.receive frame
      react s limits verdicts.tail 0 rest
    else
      let violations := min (violations + 1) 255
      Routine.emit (.note .rateLimited)
      let _ ← s.send Refusal.flooding.reply
      if limits.maxViolations ≤ violations then return ()
      else react s limits verdicts.tail violations rest

/-- serves the occurrences of a connection and tears its session down -/
def serveOccurrences (s : Session) (verdicts : List Bool) (occurring : List Occurrence) :
    Routine Unit := do
  let limits ← Routine.read (·.flood)
  s.react limits verdicts 0 occurring
  disconnect s.token

/-- serves a stream and tears the session down; all texts come within no time -/
def serve (s : Session) (stream : List Arrival) : Routine Unit := do
  let (timeouts, limits) ← Routine.read fun h => (h.timeouts, h.flood)
  let occurring := occurrences (timeouts.pingInterval * 1000) 0 stream
  s.serveOccurrences (limits.verdicts occurring.length) occurring

end Session
end RhythmLobby
