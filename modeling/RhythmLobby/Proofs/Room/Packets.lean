import RhythmLobby.Proofs.Room.Bookkeeping
import RhythmLobby.Proofs.Session.Directory

/-!
# What clients ask of rooms

A packet that has to do with rooms leaves sessions alone and keeps the books of rooms.

* `RoomTask`                    a task that leaves sessions alone, and what it makes of the books;
* `RoomNews.roomTask_leaveCurrent`, `roomTask_closeAll`   a user leaves, and all rooms close;
* `ClientPacket.OfRoom`         the packets that have to do with rooms;
* `Session.roomTask_handle`     what is done with them.
-/

namespace RhythmLobby
open Cache Routine World

/-! ## Tasks of rooms -/

/-- the task leaves sessions alone, and takes worlds with `P` to worlds with `Q` -/
structure RoomTask {α : Type} (P : World → Prop) (r : Routine α) (Q : α → World → Prop) :
    Prop where
  only : r.RoomsOnly
  takes : r.Takes P Q

section RoomTask

variable {n : Nat} {ref : RoomRef} {α β : Type} {P : World → Prop} {Q : α → World → Prop}
  {R : β → World → Prop} {r : Routine α}

theorem RoomTask.bind {f : α → Routine β} (hr : RoomTask P r Q)
    (hf : ∀ x, RoomTask (Q x) (f x) R) : RoomTask P (r.bind f) R :=
  ⟨hr.only.bind fun x => (hf x).only, takes_bind hr.takes fun x => (hf x).takes⟩

theorem roomTask_done {x : α} (h : ∀ w, P w → Q x w) : RoomTask P (done x) Q :=
  ⟨roomsOnly_done x, takes_done h⟩

theorem roomTask_of_silent (hr : r.Silent) : RoomTask (RoomsKept n) r fun _ => RoomsKept n := by
  refine ⟨hr.mono (fun h h' hm => hm ▸ ⟨rfl, rfl⟩) fun e he u hu => ?_, takes_of_silent hr⟩
  subst hu
  cases he

/-- at the end of what is done with one room the books are as right as ever -/
theorem RoomTask.roomsKept (hr : RoomTask (InRoom n ref) r fun _ => InRoom n ref) :
    RoomTask (InRoom n ref) r fun _ => RoomsKept n :=
  ⟨hr.only, fun _ _ _ hw h => (hr.takes hw h).roomsKept⟩

end RoomTask

/-! ## News -/

namespace RoomNews

variable {n : Nat}

theorem silent_notify (users : List Int32) (p : ServerPacket) : (notify users p).Silent :=
  within_bind (silent_read _) fun _ => silent_emit rfl

theorem silent_sendUpdate (ref : RoomRef) : (sendUpdate ref).Silent :=
  within_bind (silent_read _) fun _ => within_bind (silent_read _) fun _ => silent_notify _ _

theorem roomTask_leaveCurrent (user : Int32) :
    RoomTask (RoomsKept n) (leaveCurrent user) fun _ => RoomsKept n := by
  refine RoomTask.bind ⟨Rooms.roomsOnly_leave user, Rooms.takes_leave user⟩ fun left =>
    roomTask_of_silent ?_
  rcases left with _ | ⟨ref, outcome⟩
  · exact within_done _
  cases outcome with
  | notMember => exact within_done _
  | emptied => exact within_done _
  | left =>
    refine within_bind (silent_read _) fun _ => ?_
    exact within_bind (silent_notify _ _) fun _ => within_done _
  | hostPassed host =>
    refine within_bind (silent_read _) fun _ => ?_
    refine within_bind (silent_notify _ _) fun _ => ?_
    exact within_bind (silent_sendUpdate ref) fun _ => within_done _

theorem roomTask_closeRoom (ref : RoomRef) :
    RoomTask (RoomsKept n) (closeRoom ref) fun _ => RoomsKept n := by
  refine RoomTask.bind ⟨Rooms.roomsOnly_remove ref.id none, Rooms.takes_remove ref.id none⟩
    fun closed => roomTask_of_silent ?_
  cases closed with
  | error e => exact within_done _
  | ok members => exact silent_notify _ _

theorem roomTask_closeAll : RoomTask (RoomsKept n) closeAll fun _ => RoomsKept n := by
  refine (roomTask_of_silent (silent_read _)).bind fun refs => ?_
  exact ⟨roomsOnly_each (fun ref => (roomTask_closeRoom ref (n := n)).only) refs,
    takes_each (fun ref => (roomTask_closeRoom ref).takes) refs⟩

end RoomNews

/-! ## The room of a user -/

namespace Rooms

variable {n : Nat}

theorem roomsOnly_roomOf (user : Int32) : (roomOf user).RoomsOnly := by
  refine RoomsOnly.bind (roomsOnly_read _) fun place => ?_
  cases place with
  | none => exact roomsOnly_done _
  | some room => exact roomsOnly_read _

theorem takes_roomOf (user : Int32) : (roomOf user).Takes (RoomsKept n) fun found w =>
    w.RoomsKept n ∧ ∀ ref, found = some ref → w.InRoom n ref := by
  refine takes_bind (Q := fun _ => RoomsKept n) (takes_read fun _ hw => hw) fun place => ?_
  cases place with
  | none => exact takes_done fun _ hw => ⟨hw, nofun⟩
  | some room =>
    intro w x w' hw h
    obtain ⟨hw, hfound⟩ := takes_find room hw h
    exact ⟨hw, fun ref hr => (hfound ref hr).2⟩

end Rooms

/-! ## One room -/

namespace RoomRef

variable {n : Nat} {ref : RoomRef}

theorem roomTask_changeListing {op : Room → Except RoomError Room}
    (hop : ∀ r r', op r = .ok r' → r.ListingChange r') :
    RoomTask (InRoom n ref) (ref.changeListing op) fun _ => InRoom n ref :=
  ⟨ref.roomsOnly_changeListing op, takes_changeListing hop⟩

theorem roomTask_changeAll {op : Room → Except RoomError Room}
    (hop : ∀ r r', op r = .ok r' → r.Reset r') :
    RoomTask (InRoom n ref) (ref.changeAll op) fun _ => InRoom n ref :=
  ⟨ref.roomsOnly_changeAll op, takes_changeAll hop⟩

theorem roomTask_memberChange {β : Type} {op : Room → Except RoomError (PlayerRecord × Room)}
    {user : Int32} (hop : ∀ r record r', op r = .ok (record, r') → r.PlayerChange user record r')
    (f : Except RoomError PlayerRecord → Except RoomError β) :
    RoomTask (InRoom n ref) ((ref.changePlayer op).bind fun x => .done (f x)) fun _ =>
      InRoom n ref :=
  ⟨(ref.roomsOnly_changePlayer op).bind fun _ => roomsOnly_done _, takes_memberChange hop f⟩

end RoomRef

/-! ## Packets -/

/-- the packet has to do with rooms -/
def ClientPacket.OfRoom : ClientPacket → Prop
  | .roomCreate .. | .roomJoin .. | .roomLeave | .roomReady _ | .roomHasMap _ | .roomMods _
  | .roomSettings _ | .roomMap _ | .roomStart | .roomFinish _ | .roomHost _ | .roomClose => True
  | _ => False

/-- the client asks for a room of its own -/
def ClientPacket.asksForRoom : ClientPacket → Bool
  | .roomCreate .. => true
  | _ => false

/-- whether an id of a room was given away, where this came of the packet -/
def ClientPacket.takesId (p : ClientPacket) (x : Except Refusal Unit) : Bool :=
  p.asksForRoom &&
    match x with
    | .ok () => true
    | .error (.room e) => e.afterId
    | .error _ => false

namespace Session

variable {n : Nat} (s : Session)

theorem roomTask_createRoom (request : RoomRequest) :
    RoomTask (RoomsKept n) (s.createRoom request) fun x =>
      RoomsKept (n + ((ClientPacket.roomCreate request.name request.password request.maxPlayers
        request.map).takesId x).toNat) := by
  refine (roomTask_of_silent (silent_read _)).bind fun muted => ?_
  split
  · exact roomTask_done fun _ hw => hw
  refine RoomTask.bind ⟨Rooms.roomsOnly_create request _, Rooms.takes_create request _⟩
    fun made => ?_
  cases made with
  | error e => exact roomTask_done fun _ hw => hw
  | ok ref =>
    refine (roomTask_of_silent (silent_read _)).bind fun _ => ?_
    exact (roomTask_of_silent (s.silent_send _)).bind fun _ => roomTask_done fun _ hw => hw

theorem roomTask_joinRoom (room : Int32) (guess : Option String) :
    RoomTask (RoomsKept n) (s.joinRoom room guess) fun _ => RoomsKept n := by
  refine RoomTask.bind ⟨Rooms.roomsOnly_join room _ guess, Rooms.takes_join room _ guess⟩
    fun joined => roomTask_of_silent ?_
  cases joined with
  | error e => exact within_done _
  | ok ref =>
    refine within_bind (silent_read _) fun _ => ?_
    refine within_bind (s.silent_send _) fun _ => ?_
    refine within_bind (silent_read _) fun _ => ?_
    exact within_bind (RoomNews.silent_notify _ _) fun _ => within_done _

theorem roomTask_leaveRoom : RoomTask (RoomsKept n) s.leaveRoom fun _ => RoomsKept n := by
  refine (RoomNews.roomTask_leaveCurrent s.id).bind fun left => ?_
  split
  · exact roomTask_done fun _ hw => hw
  · exact roomTask_done fun _ hw => hw

theorem roomTask_inRoom {task : RoomRef → Routine (Except Refusal Unit)}
    (htask : ∀ ref, RoomTask (InRoom n ref) (task ref) fun _ => RoomsKept n) :
    RoomTask (RoomsKept n) (s.inRoom task) fun _ => RoomsKept n := by
  constructor
  · refine RoomsOnly.bind (Rooms.roomsOnly_roomOf s.id) fun found => ?_
    cases found with
    | none => exact roomsOnly_done _
    | some ref => exact (htask ref).only
  · refine takes_bind (Rooms.takes_roomOf s.id) fun found => ?_
    cases found with
    | none => exact takes_done fun _ hw => hw.1
    | some ref => exact fun _ _ _ hw h => (htask ref).takes (hw.2 ref rfl) h

theorem roomTask_changeRoom {op : RoomRef → Routine (Except RoomError Unit)}
    (hop : ∀ ref, RoomTask (InRoom n ref) (op ref) fun _ => InRoom n ref) :
    RoomTask (RoomsKept n) (s.changeRoom op) fun _ => RoomsKept n := by
  refine s.roomTask_inRoom fun ref => (hop ref).roomsKept.bind fun changed => roomTask_of_silent ?_
  cases changed with
  | error e => exact within_done _
  | ok _ => exact within_bind (RoomNews.silent_sendUpdate ref) fun _ => within_done _

theorem roomTask_closeRoom : RoomTask (RoomsKept n) s.closeRoom fun _ => RoomsKept n := by
  refine s.roomTask_inRoom fun ref => ?_
  have hremove : RoomTask (InRoom n ref) (Rooms.remove ref.id (some s.id)) fun _ => RoomsKept n :=
    ⟨Rooms.roomsOnly_remove _ _, fun _ _ _ hw h => Rooms.takes_remove _ _ hw.roomsKept h⟩
  refine hremove.bind fun closed => roomTask_of_silent ?_
  cases closed with
  | error e => exact within_done _
  | ok members => exact within_bind (RoomNews.silent_notify _ _) fun _ => within_done _

theorem roomTask_finishIn (ref : RoomRef) (winner : Option Int32) :
    RoomTask (InRoom n ref) (finishMatch.finishIn s ref winner) fun _ => RoomsKept n := by
  refine (ref.roomTask_changeAll (n := n) fun _ _ => Room.finish_ok).bind fun finished => ?_
  have hend : RoomTask (RoomsKept n) ((RoomNews.sendUpdate ref).bind fun _ =>
      .done (.ok () : Except Refusal Unit)) fun _ => RoomsKept n :=
    roomTask_of_silent (within_bind (RoomNews.silent_sendUpdate ref) fun _ => within_done _)
  cases finished with
  | error e => exact roomTask_done fun _ hw => hw.roomsKept
  | ok _ =>
    cases winner with
    | none => exact ⟨hend.only, fun _ _ _ hw h => hend.takes hw.roomsKept h⟩
    | some user =>
      exact (RoomRef.roomTask_memberChange (fun _ _ _ => Room.addWin_ok) _).roomsKept.bind
        fun _ => hend

theorem roomTask_finishMatch (winner : Option Int32) :
    RoomTask (RoomsKept n) (s.finishMatch winner) fun _ => RoomsKept n := by
  refine s.roomTask_inRoom fun ref => ?_
  cases winner with
  | none => exact s.roomTask_finishIn ref none
  | some user =>
    have hread : RoomTask (InRoom n ref) (Routine.read fun h => (h.room ref).ids) fun _ =>
      InRoom n ref :=
      ⟨roomsOnly_read _, takes_read fun _ hw => hw⟩
    refine hread.bind fun members => ?_
    split
    · exact s.roomTask_finishIn ref (some user)
    · exact roomTask_done fun _ hw => hw.roomsKept

theorem roomTask_handle {p : ClientPacket} (hp : p.OfRoom) :
    RoomTask (RoomsKept n) (s.handle p) fun x => RoomsKept (n + (p.takesId x).toNat) := by
  cases p with
  | roomCreate name password maxPlayers map => exact s.roomTask_createRoom _
  | roomJoin room password => exact s.roomTask_joinRoom room password
  | roomLeave => exact s.roomTask_leaveRoom
  | roomReady ready =>
    exact s.roomTask_changeRoom fun _ =>
      RoomRef.roomTask_memberChange (fun _ _ _ => Room.setReady_ok) _
  | roomHasMap hasMap =>
    exact s.roomTask_changeRoom fun _ =>
      RoomRef.roomTask_memberChange (fun _ _ _ => Room.setHasMap_ok) _
  | roomMods modifiers =>
    exact s.roomTask_changeRoom fun _ =>
      RoomRef.roomTask_memberChange (fun _ _ _ => Room.setModifiers_ok) _
  | roomSettings patch =>
    exact s.roomTask_changeRoom fun _ =>
      RoomRef.roomTask_changeListing fun _ _ => Room.updateSettings_ok
  | roomMap map =>
    exact s.roomTask_changeRoom fun _ => RoomRef.roomTask_changeAll fun _ _ => Room.changeMap_ok
  | roomStart =>
    exact s.roomTask_changeRoom fun _ => RoomRef.roomTask_changeListing fun _ _ => Room.start_ok
  | roomFinish winner => exact s.roomTask_finishMatch winner
  | roomHost user =>
    exact s.roomTask_changeRoom fun _ =>
      RoomRef.roomTask_changeListing fun _ _ => Room.transferHost_ok
  | roomClose => exact s.roomTask_closeRoom
  | _ => exact hp.elim

end Session

end RhythmLobby
