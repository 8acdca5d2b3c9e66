import RhythmLobby.Proofs.Room.Halting
import RhythmLobby.Proofs.Session.Order
import RhythmLobby.Task.Dispatch

/-!
# Operations of the server come to an end

* `Hub.Attended`                         whoever is found has a session in use;
* `halts_resyncStatus`                   a resynchronisation settles at its first attempt then;
* `halts_login`, `halts_disconnect`, `halts_shutdown`, `Session.halts_dispatch`   the operations.
-/

namespace RhythmLobby
open Routine

/-! ## Coming and going -/

section Presence

variable {P : Hub → Prop}

theorem Session.halts_send (s : Session) (p : ServerPacket) : (s.send p).Halts P := halts_emit _

theorem halts_announce (p : ServerPacket) : (announce p).Halts P :=
  halts_bind (halts_read _) fun _ => halts_emit _

theorem halts_gaugeUsers : gaugeUsers.Halts P := halts_bind (halts_read _) fun _ => halts_emit _

theorem Session.halts_greet (s : Session) : s.greet.Halts P := by
  refine halts_bind (halts_update _) fun _ => ?_
  refine halts_bind (halts_read _) fun status => ?_
  refine halts_bind (halts_update _) fun _ => ?_
  refine halts_bind (s.halts_send _) fun _ => ?_
  refine halts_bind (halts_read _) fun online => ?_
  refine halts_bind (s.halts_send _) fun _ => ?_
  refine halts_bind (halts_emit _) fun _ => ?_
  refine halts_bind (halts_emit _) fun _ => ?_
  exact halts_bind halts_gaugeUsers fun _ => halts_done _

theorem rooms_deregister (token : String) (m : Hub) :
    (deregister token m).2.openRooms = m.openRooms ∧ (deregister token m).2.rooms = m.rooms := by
  unfold deregister
  split <;> exact ⟨rfl, rfl⟩

theorem rated_register {m : Hub} (hm : m.Rated) (s : Session) : (register s m).2.Rated := by
  unfold register
  split
  · exact hm
  · exact hm.of_rooms rfl

/-- a teardown comes to an end if the user can leave its room -/
theorem halts_disconnect_of (hrooms : ∀ {h h' : Hub}, h'.openRooms = h.openRooms →
      h'.rooms = h.rooms → P h → P h')
    (hleave : ∀ user, (RoomNews.leaveCurrent user).Halts P) (token : String) :
    (disconnect token).Halts P := by
  have hderegister : (transact (deregister token)).Halts P := halts_transact fun m hm =>
    hrooms (rooms_deregister token m).1 (rooms_deregister token m).2 hm
  refine halts_bind hderegister fun found => ?_
  cases found with
  | none => exact halts_done _
  | some s =>
    refine halts_bind (halts_change fun m hm => hrooms (h := m) rfl rfl hm) fun _ => ?_
    refine halts_bind (hleave s.id) fun _ => ?_
    refine halts_bind (halts_update _) fun _ => ?_
    refine halts_bind halts_gaugeUsers fun _ => ?_
    refine halts_bind (halts_read _) fun other => ?_
    dsimp only
    split
    · exact halts_bind (halts_announce _) fun _ => halts_emit _
    · exact halts_emit _

theorem halts_disconnect (token : String) : (disconnect token).Halts Hub.Rated :=
  halts_disconnect_of (fun _ hrooms hm => hm.of_rooms hrooms) RoomNews.halts_leaveCurrent token

theorem halts_login (profile : Profile) (token : String) (line : Nat) :
    (login profile token line).Halts Hub.Rated := by
  rw [login_eq]
  refine halts_bind (halts_transact fun _ hm => hm.of_rooms rfl) fun s => ?_
  refine halts_bind (halts_transact fun _ hm => rated_register hm s) fun entered => ?_
  rcases entered with e | (_ | old)
  · exact halts_done _
  · exact s.halts_greet
  · refine halts_bind (old.halts_send _) fun _ => ?_
    exact halts_bind (halts_disconnect old.token) fun _ => s.halts_greet

theorem halts_shutdown : shutdown.Halts Hub.Rated := by
  refine halts_bind (RoomNews.halts_closeAll Hub.Rated.keptByClosing) fun _ => ?_
  refine halts_bind (halts_read _) fun sessions => halts_each (fun s => ?_) sessions
  exact halts_bind (s.halts_send _) fun _ => halts_disconnect s.token

end Presence

/-! ## Statuses -/

/-- whoever is found has a session in use -/
def Hub.Attended (h : Hub) : Prop :=
  ∀ {user s}, h.directory.ofUser user = some s → (h.stateOf s).retired = false

theorem Hub.retired_modifyState (h : Hub) (s s' : Session) {f : SessionState → SessionState}
    (hf : ∀ state, (f state).retired = state.retired) :
    ((h.modifyState s f).stateOf s').retired = (h.stateOf s').retired := by
  by_cases hs : s.key < h.sessions.length
  · rw [stateOf_modifyState f hs]
    split
    · rename_i hk
      rw [hf, stateOf_congr hk]
    · rfl
  · have hsessions : (h.modifyState s f).sessions = h.sessions :=
      List.set_eq_of_length_le (Nat.le_of_not_lt hs)
    have hclock : (h.modifyState s f).clock = h.clock := rfl
    rw [stateOf, stateOf, hsessions, hclock]

theorem halts_resyncStatus {P : Hub → Prop} (hP : ∀ m, P m → m.Attended) (user : Int32) :
    (resyncStatus user).Halts P := by
  intro w hw
  cases ho : w.hub.directory.ofUser user with
  | none =>
    let w₁ := w.update (.noStatus user)
    have hhub : w₁.hub = w.hub := w.update_hub _
    have hbegin : Resync.turn user .begin w.hub = .update (.noStatus user) .deleted := by
      simp [Resync.turn, ho]
    have hdeleted : Resync.turn user .deleted w₁.hub = .stop () := by
      rw [hhub]
      simp [Resync.turn, ho]
    refine ⟨(), w₁, ?_, by rw [hhub]; exact hw⟩
    rw [resyncStatus, ends_settling_of_update hbegin]
    exact (ends_settling_of_stop hdeleted).mpr ⟨rfl, rfl⟩
  | some s =>
    let status := (w.hub.stateOf s).status
    let w₁ := w.update (.status user status)
    have hhub : w₁.hub = w.hub := w.update_hub _
    have hused : (w.hub.stateOf s).retired = false := hP _ hw ho
    have hbegin : Resync.turn user .begin w.hub = .look (.found s) := by
      simp [Resync.turn, ho]
    have hfound : Resync.turn user (.found s) w.hub =
        .update (.status user status) (.wrote s status) := rfl
    have hwrote : Resync.turn user (.wrote s status) w₁.hub = .look (.alive s status) := by
      rw [hhub]
      simp [Resync.turn, hused]
    have halive : Resync.turn user (.alive s status) w₁.hub = .stop () := by
      rw [hhub]
      exact if_pos rfl
    refine ⟨(), w₁, ?_, by rw [hhub]; exact hw⟩
    rw [resyncStatus, ends_settling_of_look hbegin, ends_settling_of_update hfound,
      ends_settling_of_look hwrote]
    exact (ends_settling_of_stop halive).mpr ⟨rfl, rfl⟩

namespace Session

variable {P : Hub → Prop} (s : Session)

/-- a change of the state that keeps `P` -/
theorem halts_setStatus (status : ClientStatus)
    (hP : ∀ m, P m → P (m.modifyState s fun state => { state with status := status })) :
    (s.setStatus status).Halts P := by
  refine halts_bind (halts_transact hP) fun retired => ?_
  split
  · exact halts_done _
  refine halts_bind (halts_update _) fun _ => halts_settling (fun found m _ => ?_) status
  by_cases hretired : (m.stateOf s).retired = true
  · exact .inl ⟨false, by simp [statusTurn, hretired]⟩
  by_cases hsame : (m.stateOf s).status = found
  · exact .inl ⟨true, by simp [statusTurn, hretired, hsame]⟩
  · exact .inr ⟨.status s.id (m.stateOf s).status, (m.stateOf s).status, true,
      by simp [statusTurn, hretired, hsame], by simp [statusTurn, hretired]⟩

theorem halts_changeStatus (status : ClientStatus) :
    (s.changeStatus status).Halts fun m => m.Rated ∧ m.Attended := by
  refine halts_bind (s.halts_setStatus status fun m hm => ⟨hm.1.of_rooms rfl, ?_⟩) fun ok => ?_
  · intro user s' hs'
    have hused := hm.2 hs'
    rwa [← Hub.retired_modifyState m s s' (f := fun state => { state with status := status })
      fun _ => rfl] at hused
  · split
    · exact halts_bind (halts_announce _) fun _ => halts_done _
    · exact halts_bind (halts_resyncStatus (fun _ hm => hm.2) s.id) fun _ => halts_done _

/-! ## Packets -/

theorem halts_sendStats : s.sendStats.Halts Hub.Rated := by
  refine halts_bind (halts_bind (halts_read _) fun loaded => ?_) fun loaded => ?_
  · cases loaded with
    | error e => exact halts_done _
    | ok stats =>
      exact halts_bind (halts_change fun _ hm => hm.of_rooms rfl) fun _ => halts_done _
  · cases loaded with
    | error e => exact halts_done _
    | ok _ =>
      refine halts_bind (halts_read _) fun _ => ?_
      exact halts_bind (s.halts_send _) fun _ => halts_done _

theorem halts_createRoom (request : RoomRequest) (hmap : request.map.Rated) :
    (s.createRoom request).Halts Hub.Rated := by
  refine halts_bind (halts_read _) fun muted => ?_
  split
  · exact halts_done _
  refine halts_bind (Rooms.halts_create request _ hmap) fun made => ?_
  cases made with
  | error e => exact halts_done _
  | ok ref =>
    refine halts_bind (halts_read _) fun _ => ?_
    exact halts_bind (s.halts_send _) fun _ => halts_done _

theorem halts_joinRoom (room : Int32) (guess : Option String) :
    (s.joinRoom room guess).Halts Hub.Rated := by
  refine halts_bind (Rooms.halts_join room _ guess) fun joined => ?_
  cases joined with
  | error e => exact halts_done _
  | ok ref =>
    refine halts_bind (halts_read _) fun _ => ?_
    refine halts_bind (s.halts_send _) fun _ => ?_
    refine halts_bind (halts_read _) fun _ => ?_
    exact halts_bind (RoomNews.halts_notify _ _) fun _ => halts_done _

theorem halts_leaveRoom : s.leaveRoom.Halts Hub.Rated := by
  refine halts_bind (RoomNews.halts_leaveCurrent s.id) fun found => ?_
  split
  · exact halts_done _
  · exact halts_done _

theorem halts_inRoom {task : RoomRef → Routine (Except Refusal Unit)}
    (h : ∀ ref, (task ref).Halts P) : (s.inRoom task).Halts P := by
  refine halts_bind (Rooms.halts_roomOf s.id) fun found => ?_
  cases found with
  | none => exact halts_done _
  | some ref => exact h ref

theorem halts_changeRoom {op : RoomRef → Routine (Except RoomError Unit)}
    (h : ∀ ref, (op ref).Halts P) : (s.changeRoom op).Halts P := by
  refine s.halts_inRoom fun ref => halts_bind (h ref) fun changed => ?_
  cases changed with
  | error e => exact halts_done _
  | ok _ => exact halts_bind (RoomNews.halts_sendUpdate ref) fun _ => halts_done _

theorem halts_memberChange {op : Room → Except RoomError (PlayerRecord × Room)} {user : Int32}
    (hop : ∀ r record r', op r = .ok (record, r') → r.PlayerChange user record r') :
    (s.changeRoom fun ref => (ref.changePlayer op).bind fun changed =>
      .done (changed.map fun _ => ())).Halts Hub.Rated :=
  s.halts_changeRoom fun ref => halts_bind (ref.halts_changePlayer hop) fun _ => halts_done _

theorem halts_finishIn (ref : RoomRef) (winner : Option Int32) :
    (finishMatch.finishIn s ref winner).Halts Hub.Rated := by
  have hfinish : (ref.finish s.id).Halts Hub.Rated :=
    ref.halts_changeAll fun _ _ => Room.finish_rated
  refine halts_bind hfinish fun finished => ?_
  cases finished with
  | error e => exact halts_done _
  | ok _ =>
    have htold : ((RoomNews.sendUpdate ref).bind fun _ =>
        .done (.ok () : Except Refusal Unit)).Halts Hub.Rated :=
      halts_bind (RoomNews.halts_sendUpdate ref) fun _ => halts_done _
    cases winner with
    | none => exact htold
    | some user =>
      have hwin : (ref.addWin user).Halts Hub.Rated :=
        halts_bind (ref.halts_changePlayer fun _ _ _ => Room.addWin_ok) fun _ => halts_done _
      exact halts_bind hwin fun _ => htold

theorem halts_finishMatch (winner : Option Int32) : (s.finishMatch winner).Halts Hub.Rated := by
  refine s.halts_inRoom fun ref => ?_
  cases winner with
  | none => exact s.halts_finishIn ref none
  | some user =>
    refine halts_bind (halts_read _) fun members => ?_
    split
    · exact s.halts_finishIn ref (some user)
    · exact halts_done _

theorem halts_closeRoom : s.closeRoom.Halts Hub.Rated := by
  refine s.halts_inRoom fun ref => ?_
  refine halts_bind (Rooms.halts_remove Hub.Rated.keptByClosing ref.id (some s.id))
    fun removed => ?_
  cases removed with
  | error e => exact halts_done _
  | ok members => exact halts_bind (RoomNews.halts_notify _ _) fun _ => halts_done _

end Session

/-- the difficulty of the map that a packet names is a number -/
def ClientPacket.Rated : ClientPacket → Prop
  | .roomCreate _ _ _ map => map.Rated
  | .roomMap map => map.Rated
  | _ => True

namespace Session

variable (s : Session)

theorem halts_handle {p : ClientPacket} (hp : p.Rated) {w : World} (hr : w.hub.Rated)
    (ha : w.hub.Attended) : ∃ x w', (s.handle p).Ends w x w' ∧ w'.hub.Rated := by
  cases p with
  | status status =>
    obtain ⟨x, w', h, hw'⟩ := s.halts_changeStatus status w ⟨hr, ha⟩
    exact ⟨x, w', h, hw'.1⟩
  | login name password => exact halts_done _ w hr
  | ping => exact halts_bind (s.halts_send _) (fun _ => halts_done _) w hr
  | pong =>
    exact halts_bind (halts_change fun _ hm => hm.of_rooms rfl) (fun _ => halts_done _) w hr
  | processes list =>
    exact halts_bind (halts_change fun _ hm => hm.of_rooms rfl) (fun _ => halts_done _) w hr
  | statsRequest => exact s.halts_sendStats w hr
  | roomCreate name password maxPlayers map =>
    exact s.halts_createRoom ⟨name, Room.password? password, maxPlayers, map⟩ hp w hr
  | roomJoin room password => exact s.halts_joinRoom room password w hr
  | roomLeave => exact s.halts_leaveRoom w hr
  | roomReady ready => exact s.halts_memberChange (fun _ _ _ => Room.setReady_ok) w hr
  | roomHasMap hasMap => exact s.halts_memberChange (fun _ _ _ => Room.setHasMap_ok) w hr
  | roomMods modifiers => exact s.halts_memberChange (fun _ _ _ => Room.setModifiers_ok) w hr
  | roomSettings patch =>
    exact s.halts_changeRoom (fun ref => ref.halts_changeListing fun _ _ =>
      Room.updateSettings_ok) w hr
  | roomMap map =>
    exact s.halts_changeRoom (fun ref => ref.halts_changeAll fun _ _ ho _ =>
      Room.changeMap_rated hp ho) w hr
  | roomStart =>
    exact s.halts_changeRoom (fun ref => ref.halts_changeListing fun _ _ => Room.start_ok) w hr
  | roomFinish winner => exact s.halts_finishMatch winner w hr
  | roomHost user =>
    exact s.halts_changeRoom (fun ref => ref.halts_changeListing fun _ _ =>
      Room.transferHost_ok) w hr
  | roomClose => exact s.halts_closeRoom w hr

theorem halts_dispatch {p : ClientPacket} (hp : p.Rated) {w : World} (hr : w.hub.Rated)
    (ha : w.hub.Attended) : ∃ x w', (s.dispatch p).Ends w x w' ∧ w'.hub.Rated := by
  obtain ⟨x, w₁, h₁, hr₁⟩ := s.halts_handle hp hr ha
  apply Halts.after h₁ hr₁
  cases x with
  | error e =>
    refine halts_bind (halts_emit _) fun _ => ?_
    exact halts_bind (halts_emit _) fun _ => halts_done _
  | ok _ => exact halts_bind (halts_emit _) fun _ => halts_done _

end Session
end RhythmLobby
