import RhythmLobby.Proofs.Room.Calm
import RhythmLobby.Proofs.Room.Packets

/-!
# Tasks that leave members where they are

Most packets change what is known of a room or of a session, but not who is in which room.

* `Hub.SameSeats`            all members stay where they are;
* `Routine.Steady`           a task that leaves them there;
* `Session.steady_handle`    all packets do but those with which users come and go.
-/

namespace RhythmLobby
open Cache Routine World

namespace Hub

variable {h h' : Hub}

/-- all members stay where they are -/
structure SameSeats (h h' : Hub) : Prop where
  directory : h'.directory = h.directory
  openRooms : h'.openRooms = h.openRooms
  memberships : h'.memberships = h.memberships
  ids : ∀ ref, (h'.room ref).ids = (h.room ref).ids

theorem SameSeats.refl (h : Hub) : h.SameSeats h := ⟨rfl, rfl, rfl, fun _ => rfl⟩

theorem SameSeats.trans {h'' : Hub} (hs : h.SameSeats h') (hs' : h'.SameSeats h'') :
    h.SameSeats h'' where
  directory := hs'.directory.trans hs.directory
  openRooms := hs'.openRooms.trans hs.openRooms
  memberships := hs'.memberships.trans hs.memberships
  ids ref := (hs'.ids ref).trans (hs.ids ref)

theorem sameSeats_setRoom {ref : RoomRef} {r : Room} (hids : r.ids = (h.room ref).ids) :
    h.SameSeats (h.setRoom ref r) := by
  refine ⟨rfl, rfl, rfl, fun ref' => ?_⟩
  by_cases hk : ref'.key = ref.key
  · by_cases hlt : ref.key < h.rooms.length
    · have hnew : (h.setRoom ref r).room ref' = r := by
        rw [room, hk, setRoom, List.getElem?_set_self hlt]
        rfl
      have hold : h.room ref' = h.room ref := by
        rw [room, room, hk, List.getElem?_eq_getElem hlt]
        rfl
      rw [hnew, hold, hids]
    · rw [setRoom, List.set_eq_of_length_le (Nat.le_of_not_lt hlt)]
  · rw [room_setRoom_of_ne hk]

end Hub

/-! ## Tasks -/

namespace Routine

variable {α β : Type}

/-- all members stay where they are, whatever else the task does -/
def Steady (r : Routine α) : Prop := r.Within Hub.SameSeats fun _ => True

theorem Calm.steady {r : Routine α} (hr : r.Calm) : r.Steady :=
  hr.mono (fun h _ hm => hm ▸ .refl h) fun _ => id

theorem steady_done (x : α) : (done x).Steady := trivial

theorem steady_read (f : Hub → α) : (read f).Steady := (calm_read f).steady

theorem Steady.bind {r : Routine α} {f : α → Routine β} (hr : r.Steady)
    (hf : ∀ x, (f x).Steady) : (r.bind f).Steady := within_bind hr hf

theorem Steady.ends {r : Routine α} (hr : r.Steady) {w w' : World} {x : α}
    (h : r.Ends w x w') : w.hub.SameSeats w'.hub := by
  refine Within.induction (P := fun v => w.hub.SameSeats v.hub) hr ?_ ?_ h (.refl _)
  · exact fun v h hv hm => hv.trans hm
  · intro v e hv _
    rw [Effect.perform_hub]
    exact hv

end Routine

namespace RoomRef

variable {β : Type} (ref : RoomRef)

theorem steady_change {op : Room → Except RoomError (β × Room)}
    (hop : ∀ r x r', op r = .ok (x, r') → r'.ids = r.ids) : (ref.change op).Steady := by
  refine within_transact fun h => ?_
  cases hx : op (h.room ref) with
  | error e => exact .refl h
  | ok p => exact Hub.sameSeats_setRoom (hop _ _ _ hx)

theorem steady_changePlayer {op : Room → Except RoomError (PlayerRecord × Room)}
    (hop : ∀ r x r', op r = .ok (x, r') → r'.ids = r.ids) : (ref.changePlayer op).Steady := by
  refine Steady.bind (ref.steady_change hop) fun changed => ?_
  cases changed with
  | error e => exact steady_done _
  | ok record => exact ((ref.calm_writePlayer record).bind fun _ => calm_done _).steady

theorem steady_changeListing {op : Room → Except RoomError Room}
    (hop : ∀ r r', op r = .ok r' → r'.ids = r.ids) : (ref.changeListing op).Steady := by
  refine Steady.bind (ref.steady_change fun r x r' h => ?_) fun changed => ?_
  · obtain ⟨r₁, hr₁, hx⟩ := Room.map_ok h
    cases hx
    exact hop _ _ hr₁
  cases changed with
  | error e => exact steady_done _
  | ok l => exact ((ref.calm_writeListing l).bind fun _ => calm_done _).steady

theorem steady_changeAll {op : Room → Except RoomError Room}
    (hop : ∀ r r', op r = .ok r' → r'.ids = r.ids) : (ref.changeAll op).Steady := by
  refine Steady.bind (ref.steady_change fun r x r' h => ?_) fun changed => ?_
  · obtain ⟨r₁, hr₁, hx⟩ := Room.map_ok h
    cases hx
    exact hop _ _ hr₁
  cases changed with
  | error e => exact steady_done _
  | ok _ => exact (ref.calm_publish.bind fun _ => calm_done _).steady

end RoomRef

namespace Session

variable (s : Session)

theorem steady_modifyState (f : Hub → SessionState → SessionState) :
    (Routine.change fun h => h.modifyState s (f h)).Steady :=
  within_change fun _ => ⟨rfl, rfl, rfl, fun _ => rfl⟩

theorem steady_changeStatus (status : ClientStatus) : (s.changeStatus status).Steady := by
  have hset : (s.setStatus status).Steady := by
    refine Steady.bind (within_transact fun _ => ⟨rfl, rfl, rfl, fun _ => rfl⟩) fun retired => ?_
    split
    · exact steady_done _
    · exact ((calm_update _).bind fun _ => calm_settling _ _).steady
  refine hset.bind fun ok => ?_
  split
  · exact ((silent_announce _).calm.bind fun _ => calm_done _).steady
  · exact ((calm_settling _ _).bind fun _ => calm_done _).steady

theorem steady_sendStats : s.sendStats.Steady := by
  refine Steady.bind ?_ fun loaded => ?_
  · refine Steady.bind (steady_read _) fun loaded => ?_
    cases loaded with
    | error e => exact steady_done _
    | ok stats => exact (s.steady_modifyState _).bind fun _ => steady_done _
  · cases loaded with
    | error e => exact steady_done _
    | ok _ =>
      exact ((calm_read _).bind fun _ => (calm_emit _).bind fun _ => calm_done _).steady

theorem steady_inRoom {task : RoomRef → Routine (Except Refusal Unit)}
    (htask : ∀ ref, (task ref).Steady) : (s.inRoom task).Steady := by
  refine Steady.bind (Steady.bind (steady_read _) fun place => ?_) fun found => ?_
  · cases place with
    | none => exact steady_done _
    | some room => exact steady_read _
  · cases found with
    | none => exact steady_done _
    | some ref => exact htask ref

theorem steady_changeRoom {op : RoomRef → Routine (Except RoomError Unit)}
    (hop : ∀ ref, (op ref).Steady) : (s.changeRoom op).Steady := by
  refine s.steady_inRoom fun ref => (hop ref).bind fun changed => ?_
  cases changed with
  | error e => exact steady_done _
  | ok _ => exact ((RoomNews.calm_sendUpdate ref).bind fun _ => calm_done _).steady

theorem steady_finishMatch (winner : Option Int32) : (s.finishMatch winner).Steady := by
  have hfinish : ∀ ref winner, (finishMatch.finishIn s ref winner).Steady := by
    intro ref winner
    refine Steady.bind (ref.steady_changeAll fun _ _ h => (Room.finish_ok h).ids) fun finished => ?_
    have hend : ((RoomNews.sendUpdate ref).bind fun _ =>
        .done (.ok () : Except Refusal Unit)).Steady :=
      ((RoomNews.calm_sendUpdate ref).bind fun _ => calm_done _).steady
    cases finished with
    | error e => exact steady_done _
    | ok _ =>
      cases winner with
      | none => exact hend
      | some user =>
        refine Steady.bind (Steady.bind (ref.steady_changePlayer fun _ _ _ h => ?_)
          fun _ => steady_done _) fun _ => hend
        exact Room.ids_modifyMember (f := Member.win) (fun _ => rfl) h
  refine s.steady_inRoom fun ref => ?_
  cases winner with
  | none => exact hfinish ref none
  | some user =>
    refine Steady.bind (steady_read _) fun members => ?_
    split
    · exact hfinish ref (some user)
    · exact steady_done _

end Session

/-! ## Packets -/

namespace ClientPacket

/-- the client asks to be put into a room -/
def Enters : ClientPacket → Prop
  | .roomCreate .. | .roomJoin .. => True
  | _ => False

/-- members leave -/
def Clears : ClientPacket → Prop
  | .roomLeave | .roomClose => True
  | _ => False

end ClientPacket

theorem Session.steady_handle (s : Session) {p : ClientPacket} (he : ¬ p.Enters)
    (hc : ¬ p.Clears) : (s.handle p).Steady := by
  have hplayer : ∀ {op : Room → Except RoomError (PlayerRecord × Room)},
      (∀ r x r', op r = .ok (x, r') → r'.ids = r.ids) →
      (s.changeRoom fun ref => (ref.changePlayer op).bind fun x =>
        .done (x.map fun _ => ())).Steady := fun hop =>
    s.steady_changeRoom fun ref => (ref.steady_changePlayer hop).bind fun _ => steady_done _
  cases p with
  | login name password => exact steady_done _
  | ping => exact ((calm_emit _).bind fun _ => calm_done _).steady
  | pong =>
    exact Steady.bind (s.steady_modifyState fun h state => { state with lastPong := h.clock })
      fun _ => steady_done _
  | status status => exact s.steady_changeStatus status
  | processes list =>
    exact Steady.bind (s.steady_modifyState fun _ state => { state with processes := list })
      fun _ => steady_done _
  | statsRequest => exact s.steady_sendStats
  | roomReady ready =>
    exact hplayer fun _ _ _ h =>
      Room.ids_modifyMember (f := fun m => { m with ready := ready }) (fun _ => rfl) h
  | roomHasMap hasMap =>
    exact hplayer fun _ _ _ h =>
      Room.ids_modifyMember (f := fun m => { m with hasMap := hasMap }) (fun _ => rfl) h
  | roomMods modifiers =>
    exact hplayer fun _ _ _ h =>
      Room.ids_modifyMember (f := fun m => { m with modifiers := modifiers }) (fun _ => rfl) h
  | roomSettings patch =>
    refine s.steady_changeRoom fun ref => ref.steady_changeListing fun _ _ h => ?_
    exact congrArg (List.map Member.id) (Room.updateSettings_ok h).members
  | roomMap map =>
    exact s.steady_changeRoom fun ref => ref.steady_changeAll fun _ _ h => (Room.changeMap_ok h).ids
  | roomStart =>
    refine s.steady_changeRoom fun ref => ref.steady_changeListing fun _ _ h => ?_
    exact congrArg (List.map Member.id) (Room.start_ok h).members
  | roomFinish winner => exact s.steady_finishMatch winner
  | roomHost user =>
    refine s.steady_changeRoom fun ref => ref.steady_changeListing fun _ _ h => ?_
    exact congrArg (List.map Member.id) (Room.transferHost_ok h).members
  | roomLeave => exact absurd trivial hc
  | roomClose => exact absurd trivial hc
  | _ => exact absurd trivial he

end RhythmLobby
