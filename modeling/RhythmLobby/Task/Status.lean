import RhythmLobby.Hub.Routine

/-!
# The status of a user

* `Session.setStatus`    stores a new status and writes it until it is settled;
* `resyncStatus`         makes the record of a user that of the session the user has now.
-/

namespace RhythmLobby
open Cache

/-- one look at the session, where `written` was written last; a session that has been torn down
leaves its record to others -/
def Session.statusTurn (s : Session) (written : ClientStatus) (h : Hub) : Turn ClientStatus Bool :=
  let state := h.stateOf s
  if state.retired then .stop false
  else if state.status = written then .stop true
  else .update (Update.status s.id state.status) state.status

/-- stores a status and writes its record; `false` if the session was torn down meanwhile -/
def Session.setStatus (s : Session) (status : ClientStatus) : Routine Bool := do
  let retired ← Routine.transact fun h =>
    ((h.stateOf s).retired, h.modifyState s fun state => { state with status := status })
  if retired then return false
  Routine.update (Update.status s.id status)
  Routine.settling s.statusTurn status

/-- how far a resynchronisation has come -/
inductive Resync where
  | begin
  /-- the session the user has -/
  | found (s : Session)
  /-- the status written for the session -/
  | wrote (s : Session) (status : ClientStatus)
  /-- the session was still in use after the write -/
  | alive (s : Session) (status : ClientStatus)
  /-- the record deleted, since the user had no session -/
  | deleted

def Resync.turn (user : Int32) (found : Resync) (h : Hub) : Turn Resync Unit :=
  match found with
  | .begin =>
    match h.directory.ofUser user with
    | some s => .look (.found s)
    | none => .update (Update.noStatus user) .deleted
  | .found s =>
    let status := (h.stateOf s).status
    .update (Update.status user status) (.wrote s status)
  | .wrote s status => if (h.stateOf s).retired then .look .begin else .look (.alive s status)
  | .alive s status => if (h.stateOf s).status = status then .stop () else .look .begin
  | .deleted => if (h.directory.ofUser user).isNone then .stop () else .look .begin

/-- makes the status record of a user that of its session, or deletes it if there is none -/
def resyncStatus (user : Int32) : Routine Unit := Routine.settling (Resync.turn user) .begin

end RhythmLobby
