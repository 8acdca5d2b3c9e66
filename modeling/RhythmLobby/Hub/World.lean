import RhythmLobby.Cache.Update
import RhythmLobby.Hub.Line
import RhythmLobby.Hub.Metrics
import RhythmLobby.Hub.State

/-!
# The server and what surrounds it

A `World` is the server's memory together with the cache, the lines to clients and the counts.

* `World.update`     one update of the cache;
* `World.deliver`    a packet for one session;
* `World.fanOut`     a packet for many sessions;
* `World.setOutage`, `World.setLine`, `World.pass`, `World.closeDatabase`
                     what happens to the server from outside;
* `Effect`           what a task does to the world besides changing memory;
* `Effect.Answer`    what a task is told of an effect;
* `Effect.answer`, `Effect.perform`   the answer, and the world afterwards.
-/

namespace RhythmLobby

structure World where
  hub : Hub
  cache : Cache.Journal
  lines : List Line
  metrics : Metrics

namespace World

/-- a server that has just started, with an empty cache and no lines -/
def start (hub : Hub) : World := ⟨hub, .empty, [], .empty⟩

def note (w : World) (h : Happening) : World := { w with metrics := w.metrics.note h }

/-- a new line, and its number -/
def addLine (w : World) (state : LineState) : Nat × World :=
  (w.lines.length, { w with lines := w.lines ++ [Line.opened state] })

/-- one update of the cache; a failure is counted -/
def update (w : World) (u : Cache.Update) : World :=
  let (ok, cache) := w.cache.call u.call
  let w := { w with cache := cache }
  if ok then w else w.note (.cacheFailed u.name)

/-- whether the store would take an update -/
def takes (w : World) (u : Cache.Update) : Bool := (w.cache.call u.call).1

def write (w : World) (p : ServerPacket) (line : Nat) : Except WriteError World :=
  match w.lines[line]? with
  | none => .error .closed
  | some l => (l.write p).map fun l => { w with lines := w.lines.set line l }

/-- a packet for one session, and whether its line took it -/
def deliver (w : World) (p : ServerPacket) (s : Session) : Bool × World :=
  match w.write p s.line with
  | .ok w => (true, w.note .frameSent)
  | .error e => (false, w.note (.sendFailed e.kind))

/-- a packet for each of the sessions, and how many lines took it -/
def deliverEach (w : World) (p : ServerPacket) : List Session → Nat × World
  | [] => (0, w)
  | s :: rest =>
    let (ok, w) := w.deliver p s
    let (n, w) := deliverEach w p rest
    (if ok then n + 1 else n, w)

/-- a packet for many sessions; the size of a fan-out to somebody is counted -/
def fanOut (w : World) (p : ServerPacket) (sessions : List Session) : Nat × World :=
  if sessions.isEmpty then (0, w)
  else
    let (n, w) := w.deliverEach p sessions
    (n, w.note (.fanOut sessions.length))

/-- a frame for a line without a session; nothing is counted -/
def offer (w : World) (p : ServerPacket) (line : Nat) : World :=
  match w.write p line with
  | .ok w => w
  | .error _ => w

def hangUp (w : World) (line : Nat) : World :=
  { w with lines := w.lines.modify line Line.hangUp }

/-! ## Changes from outside -/

/-- from now on every call on the store fails, or none does -/
def setOutage (w : World) (on : Bool) : World :=
  { w with cache := { w.cache with outage := fun _ => on } }

/-- from now on a line behaves in another way -/
def setLine (w : World) (line : Nat) (state : LineState) : World :=
  { w with lines := w.lines.modify line fun l => { l with state := state } }

/-- time that passes while nothing else happens -/
def pass (w : World) (ms : Int64) : World :=
  { w with hub := { w.hub with clock := w.hub.clock + ms } }

/-- from now on nothing can be asked of the database -/
def closeDatabase (w : World) : World :=
  { w with hub := { w.hub with database := w.hub.database.close } }

end World

/-- what a task does to the world besides changing memory -/
inductive Effect where
  | update (u : Cache.Update)
  | deliver (p : ServerPacket) (s : Session)
  | fanOut (p : ServerPacket) (sessions : List Session)
  | offer (p : ServerPacket) (line : Nat)
  | hangUp (line : Nat)
  | note (h : Happening)
  | gaugeUsers (n : Nat)
  | gaugeRooms (n : Nat)

namespace Effect

/-- what a task is told of an effect: whether the store took an update, whether or why not a line
took a frame, and how many lines took a frame for many -/
@[reducible] def Answer : Effect → Type
  | .update _ => Bool
  | .deliver _ _ => Bool
  | .fanOut _ _ => Nat
  | .offer _ _ => Except WriteError Unit
  | _ => Unit

def answer (w : World) : (e : Effect) → e.Answer
  | .update u => w.takes u
  | .deliver p s => (w.deliver p s).1
  | .fanOut p sessions => (w.fanOut p sessions).1
  | .offer p line => (w.write p line).map fun _ => ()
  | .hangUp _ => ()
  | .note _ => ()
  | .gaugeUsers _ => ()
  | .gaugeRooms _ => ()

def perform (w : World) : Effect → World
  | .update u => w.update u
  | .deliver p s => (w.deliver p s).2
  | .fanOut p sessions => (w.fanOut p sessions).2
  | .offer p line => w.offer p line
  | .hangUp line => w.hangUp line
  | .note h => w.note h
  | .gaugeUsers n => { w with metrics := { w.metrics with connectedUsers := n } }
  | .gaugeRooms n => { w with metrics := { w.metrics with activeRooms := n } }

end Effect

/-! ## Effects and memory -/

namespace World

theorem update_hub (w : World) (u : Cache.Update) : (w.update u).hub = w.hub := by
  unfold update
  split
  rename_i ok cache _
  cases ok <;> rfl

theorem write_hub {w w' : World} {p : ServerPacket} {line : Nat} (h : w.write p line = .ok w') :
    w'.hub = w.hub := by
  unfold write at h
  split at h
  · cases h
  · rename_i l _
    cases hl : l.write p with
    | error _ => rw [hl] at h; cases h
    | ok l' => rw [hl] at h; cases h; rfl

theorem deliver_hub (w : World) (p : ServerPacket) (s : Session) :
    (w.deliver p s).2.hub = w.hub := by
  unfold deliver
  cases hw : w.write p s.line with
  | ok w' => exact (write_hub hw : w'.hub = w.hub)
  | error e => rfl

theorem deliverEach_hub (p : ServerPacket) (sessions : List Session) (w : World) :
    (w.deliverEach p sessions).2.hub = w.hub := by
  induction sessions generalizing w with
  | nil => rfl
  | cons s rest ih =>
    show ((w.deliver p s).2.deliverEach p rest).2.hub = w.hub
    rw [ih, deliver_hub]

theorem fanOut_hub (w : World) (p : ServerPacket) (sessions : List Session) :
    (w.fanOut p sessions).2.hub = w.hub := by
  unfold fanOut
  split
  · rfl
  · exact deliverEach_hub p sessions w

theorem offer_hub (w : World) (p : ServerPacket) (line : Nat) : (w.offer p line).hub = w.hub := by
  unfold offer
  cases hw : w.write p line with
  | ok w' => exact (write_hub hw : w'.hub = w.hub)
  | error e => rfl

end World

theorem Effect.perform_hub (e : Effect) (w : World) : (e.perform w).hub = w.hub := by
  cases e with
  | update u => exact w.update_hub u
  | deliver p s => exact w.deliver_hub p s
  | fanOut p sessions => exact w.fanOut_hub p sessions
  | offer p line => exact w.offer_hub p line
  | hangUp line => rfl
  | note h => rfl
  | gaugeUsers n => rfl
  | gaugeRooms n => rfl

end RhythmLobby
