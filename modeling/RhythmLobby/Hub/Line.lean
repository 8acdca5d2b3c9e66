import RhythmLobby.Packet.Server

/-!
# Lines to clients

A `Line` carries frames to one client.  A write succeeds, is refused, or is given up when its time
is over, depending on the state of the line; after a hang-up every write fails.

* `Line.write`    one frame offered to the line;
* `Line.hangUp`   the server's end of the line closed;
* `Line.events`   what came through, and the hang-ups.
-/

namespace RhythmLobby

inductive LineState where
  | healthy
  /-- every write is refused -/
  | broken
  /-- no write ever ends -/
  | stalled
  deriving DecidableEq

inductive WriteError where
  | refused
  | timeout
  | closed
  deriving DecidableEq

def WriteError.kind : WriteError → String
  | refused => "write"
  | timeout => "timeout"
  | closed => "closed"

inductive LineEvent where
  | frame (p : ServerPacket)
  | hangUp
  deriving DecidableEq

structure Line where
  state : LineState
  closed : Bool
  events : List LineEvent

namespace Line

def opened (state : LineState) : Line := ⟨state, false, []⟩

/-- Why a write fails now, if it does.  The time for a write is part of the state of the line: on a
stalled line every write takes longer and is given up. -/
def fault? (l : Line) : Option WriteError :=
  if l.closed then some .closed
  else
    match l.state with
    | .healthy => none
    | .broken => some .refused
    | .stalled => some .timeout

def write (l : Line) (p : ServerPacket) : Except WriteError Line :=
  match l.fault? with
  | some e => .error e
  | none => .ok { l with events := l.events ++ [.frame p] }

/-- a hang-up takes no time, even on a stalled line -/
def hangUp (l : Line) : Line := { l with closed := true, events := l.events ++ [.hangUp] }

def frames (l : Line) : List ServerPacket :=
  l.events.filterMap fun
    | .frame p => some p
    | .hangUp => none

end Line
end RhythmLobby
