import RhythmLobby.Proofs.Room.Passwords
import RhythmLobby.Proofs.Session.Directory
import RhythmLobby.Task.Dispatch

/-!
# Tasks under other passwords

Users come and go, and packets are carried out, in the same way under other passwords.  If the
passwords stay as they are, this says that no task depends on the answers to its effects.

* `parallel_login`, `parallel_disconnect`, `parallel_shutdown`   users come and go;
* `Session.parallel_dispatch`   packets with other passwords;
* `oblivious_login` to `Session.oblivious_dispatch`   no task heeds the answers to its effects.
-/

namespace RhythmLobby
open Routine

variable (f : Recoding)

/-! ## Coming and going -/

section Presence

theorem parallel_announce (p : ServerPacket) :
    Parallel (Hub.recoded f) (announce p).void (announce p).void :=
  .bind_void (parallel_read fun _ => rfl) fun _ => parallel_emit _

theorem parallel_gaugeUsers : Parallel (Hub.recoded f) gaugeUsers gaugeUsers :=
  .bind (parallel_read fun _ => rfl) fun _ => parallel_tell _

theorem parallel_greet (s : Session) : Parallel (Hub.recoded f) s.greet s.greet := by
  refine .bind (parallel_update _) fun _ => ?_
  refine .bind (parallel_read fun _ => rfl) fun status => ?_
  refine .bind (parallel_update _) fun _ => ?_
  apply (parallel_emit _).drop
  refine .bind (parallel_read fun _ => rfl) fun online => ?_
  apply (parallel_emit _).drop
  apply (parallel_emit _).drop
  apply (parallel_emit _).drop
  exact .bind (parallel_gaugeUsers f) fun _ => .done _

theorem recoded_deregister (token : String) (h : Hub) :
    deregister token (h.recoded f) =
      ((deregister token h).1, (deregister token h).2.recoded f) := by
  unfold deregister
  rw [show (h.recoded f).directory = h.directory from rfl]
  cases h.directory.remove token <;> rfl

theorem recoded_register (s : Session) (h : Hub) :
    register s (h.recoded f) = ((register s h).1, (register s h).2.recoded f) := by
  unfold register
  rw [show (h.recoded f).directory = h.directory from rfl]
  cases h.directory.add s <;> rfl

theorem parallel_disconnect (token : String) :
    Parallel (Hub.recoded f) (disconnect token) (disconnect token) := by
  refine .bind (parallel_transact (recoded_deregister f token)) fun found => ?_
  cases found with
  | none => exact .done _
  | some s =>
    refine .bind (parallel_change fun _ => rfl) fun _ => ?_
    refine .bind (RoomNews.parallel_leaveCurrent f s.id) fun _ => ?_
    refine .bind (parallel_update _) fun _ => ?_
    refine .bind (parallel_gaugeUsers f) fun _ => ?_
    refine .bind (parallel_read fun _ => rfl) fun other => ?_
    dsimp only
    split
    · exact (parallel_announce f _).drop (parallel_tell _)
    · exact parallel_tell _

theorem parallel_login (profile : Profile) (token : String) (line : Nat) :
    Parallel (Hub.recoded f) (login profile token line) (login profile token line) := by
  rw [login_eq]
  refine .bind (parallel_transact fun _ => rfl) fun s => ?_
  refine .bind (parallel_transact (recoded_register f s)) fun entered => ?_
  rcases entered with e | (_ | old)
  · exact .done _
  · exact parallel_greet f s
  · apply (parallel_emit _).drop
    exact .bind (parallel_disconnect f old.token) fun _ => parallel_greet f s

theorem parallel_shutdown : Parallel (Hub.recoded f) shutdown shutdown := by
  refine .bind (RoomNews.parallel_closeAll f) fun _ => ?_
  refine .bind (parallel_read fun _ => rfl) fun sessions => parallel_each (fun s => ?_) sessions
  exact (parallel_emit _).drop (parallel_disconnect f s.token)

end Presence

/-! ## Packets -/

/-- the same packet with another password, if it carries one that opens a room -/
def ClientPacket.recoded : ClientPacket → ClientPacket
  | .roomCreate name password maxPlayers map => .roomCreate name (f.apply password) maxPlayers map
  | .roomJoin id guess => .roomJoin id (f.apply guess)
  | .roomSettings patch => .roomSettings (patch.recoded f)
  | p => p

theorem ClientPacket.kind_recoded (p : ClientPacket) : (p.recoded f).kind = p.kind := by
  cases p <;> rfl

namespace Session

variable (s : Session)

theorem parallel_changeStatus (status : ClientStatus) :
    Parallel (Hub.recoded f) (s.changeStatus status) (s.changeStatus status) := by
  have hset : Parallel (Hub.recoded f) (s.setStatus status) (s.setStatus status) := by
    refine .bind (parallel_transact fun _ => rfl) fun retired => ?_
    cases retired with
    | true => exact .done _
    | false =>
      refine .bind (parallel_update _) fun _ => parallel_settling (fun found h => ?_) status
      rfl
  have hresync : Parallel (Hub.recoded f) (resyncStatus s.id) (resyncStatus s.id) := by
    refine parallel_settling (fun found h => ?_) _
    cases found <;> rfl
  refine hset.bind fun ok => ?_
  cases ok with
  | true => exact (parallel_announce f _).drop (.done _)
  | false => exact hresync.bind fun _ => .done _

theorem parallel_sendStats : Parallel (Hub.recoded f) s.sendStats s.sendStats := by
  refine .bind (.bind (parallel_read fun _ => rfl) fun loaded => ?_) fun loaded => ?_
  · cases loaded with
    | error e => exact .done _
    | ok stats => exact .bind (parallel_change fun _ => rfl) fun _ => .done _
  · cases loaded with
    | error e => exact .done _
    | ok _ =>
      refine .bind (parallel_read fun _ => rfl) fun _ => ?_
      exact (parallel_emit _).drop (.done _)

theorem parallel_createRoom (request : RoomRequest) :
    Parallel (Hub.recoded f) (s.createRoom request)
      (s.createRoom { request with password := f.apply request.password }) := by
  refine .bind (parallel_read fun _ => rfl) fun muted => ?_
  cases muted with
  | true => exact .done _
  | false =>
    refine .bind (Rooms.parallel_create f request _) fun made => ?_
    cases made with
    | error e => exact .done _
    | ok ref =>
      refine .bind (ref.parallel_readRoom f fun r => r.recoded_snapshot f) fun _ => ?_
      exact (parallel_emit _).drop (.done _)

theorem parallel_joinRoom (room : Int32) (guess : Option String) :
    Parallel (Hub.recoded f) (s.joinRoom room guess) (s.joinRoom room (f.apply guess)) := by
  refine .bind (Rooms.parallel_join f room _ guess) fun joined => ?_
  cases joined with
  | error e => exact .done _
  | ok ref =>
    refine .bind (ref.parallel_readRoom f fun r => r.recoded_snapshot f) fun _ => ?_
    apply (parallel_emit _).drop
    refine .bind (ref.parallel_readRoom f fun _ => rfl) fun _ => ?_
    exact (RoomNews.parallel_notify f _ _).drop (.done _)

theorem parallel_leaveRoom : Parallel (Hub.recoded f) s.leaveRoom s.leaveRoom := by
  refine .bind (RoomNews.parallel_leaveCurrent f s.id) fun found => ?_
  cases found <;> exact .done _

theorem parallel_inRoom {task task' : RoomRef → Routine (Except Refusal Unit)}
    (h : ∀ ref, Parallel (Hub.recoded f) (task ref) (task' ref)) :
    Parallel (Hub.recoded f) (s.inRoom task) (s.inRoom task') := by
  refine .bind (Rooms.parallel_roomOf f s.id) fun found => ?_
  cases found with
  | none => exact .done _
  | some ref => exact h ref

theorem parallel_changeRoom {op op' : RoomRef → Routine (Except RoomError Unit)}
    (h : ∀ ref, Parallel (Hub.recoded f) (op ref) (op' ref)) :
    Parallel (Hub.recoded f) (s.changeRoom op) (s.changeRoom op') := by
  refine s.parallel_inRoom f fun ref => (h ref).bind fun changed => ?_
  cases changed with
  | error e => exact .done _
  | ok _ => exact .bind (RoomNews.parallel_sendUpdate f ref) fun _ => .done _

theorem parallel_memberChange (user : Int32) (g : Member → Member) :
    Parallel (Hub.recoded f)
      (s.changeRoom fun ref => (ref.changePlayer (·.modifyMember user g)).bind fun changed =>
        .done (changed.map fun _ => ()))
      (s.changeRoom fun ref => (ref.changePlayer (·.modifyMember user g)).bind fun changed =>
        .done (changed.map fun _ => ())) :=
  s.parallel_changeRoom f fun ref =>
    .bind (ref.parallel_changePlayer (Room.recodes_modifyMember f user g)) fun _ => .done _

theorem parallel_finishIn (ref : RoomRef) (winner : Option Int32) :
    Parallel (Hub.recoded f) (finishMatch.finishIn s ref winner)
      (finishMatch.finishIn s ref winner) := by
  have hfinish : Parallel (Hub.recoded f) (ref.finish s.id) (ref.finish s.id) :=
    ref.parallel_changeAll (Room.recodes_finish f s.id)
  have htold : Parallel (Hub.recoded f)
      ((RoomNews.sendUpdate ref).bind fun _ => .done (.ok () : Except Refusal Unit))
      ((RoomNews.sendUpdate ref).bind fun _ => .done (.ok ())) :=
    .bind (RoomNews.parallel_sendUpdate f ref) fun _ => .done _
  refine hfinish.bind fun finished => ?_
  cases finished with
  | error e => exact .done _
  | ok _ =>
    cases winner with
    | none => exact htold
    | some user =>
      have hwin : Parallel (Hub.recoded f) (ref.addWin user) (ref.addWin user) :=
        .bind (ref.parallel_changePlayer (Room.recodes_modifyMember f user Member.win))
          fun _ => .done _
      exact hwin.bind fun _ => htold

theorem parallel_finishMatch (winner : Option Int32) :
    Parallel (Hub.recoded f) (s.finishMatch winner) (s.finishMatch winner) := by
  refine s.parallel_inRoom f fun ref => ?_
  cases winner with
  | none => exact s.parallel_finishIn f ref none
  | some user =>
    refine .bind (ref.parallel_readRoom f fun _ => rfl) fun members => ?_
    split
    · exact s.parallel_finishIn f ref (some user)
    · exact .done _

theorem parallel_closeRoom : Parallel (Hub.recoded f) s.closeRoom s.closeRoom := by
  refine s.parallel_inRoom f fun ref => ?_
  refine .bind (Rooms.parallel_remove f ref.id (some s.id)) fun removed => ?_
  cases removed with
  | error e => exact .done _
  | ok members => exact (RoomNews.parallel_notify f _ _).drop (.done _)

theorem parallel_handle (p : ClientPacket) :
    Parallel (Hub.recoded f) (s.handle p) (s.handle (p.recoded f)) := by
  cases p with
  | login username password => exact .done _
  | ping => exact (parallel_emit _).drop (.done _)
  | pong => exact .bind (parallel_change fun _ => rfl) fun _ => .done _
  | status status => exact s.parallel_changeStatus f status
  | processes list => exact .bind (parallel_change fun _ => rfl) fun _ => .done _
  | statsRequest => exact s.parallel_sendStats f
  | roomCreate name password maxPlayers map =>
    rw [ClientPacket.recoded, handle, handle, f.password?_apply]
    exact s.parallel_createRoom f ⟨name, Room.password? password, maxPlayers, map⟩
  | roomJoin room guess => exact s.parallel_joinRoom f room guess
  | roomLeave => exact s.parallel_leaveRoom f
  | roomReady ready => exact s.parallel_memberChange f s.id _
  | roomHasMap hasMap => exact s.parallel_memberChange f s.id _
  | roomMods modifiers => exact s.parallel_memberChange f s.id _
  | roomSettings patch =>
    exact s.parallel_changeRoom f fun ref =>
      ref.parallel_changeListing (Room.recodes_updateSettings f s.id patch)
  | roomMap map =>
    exact s.parallel_changeRoom f fun ref =>
      ref.parallel_changeAll (Room.recodes_changeMap f s.id map)
  | roomStart =>
    exact s.parallel_changeRoom f fun ref =>
      ref.parallel_changeListing (Room.recodes_start f s.id)
  | roomFinish winner => exact s.parallel_finishMatch f winner
  | roomHost user =>
    exact s.parallel_changeRoom f fun ref =>
      ref.parallel_changeListing (Room.recodes_transferHost f s.id user)
  | roomClose => exact s.parallel_closeRoom f

theorem parallel_dispatch (p : ClientPacket) :
    Parallel (Hub.recoded f) (s.dispatch p) (s.dispatch (p.recoded f)) := by
  unfold dispatch
  rw [p.kind_recoded]
  refine .bind (s.parallel_handle f p) fun x => ?_
  cases x with
  | error e =>
    apply (parallel_emit _).drop
    exact (parallel_emit _).drop (.done _)
  | ok _ => exact (parallel_emit _).drop (.done _)

end Session

/-! ## What tasks are told of their effects -/

/-- every password stays as it is -/
def Recoding.same : Recoding := ⟨id, Function.injective_id, rfl⟩

theorem Recoding.apply_same (p : Option String) : Recoding.same.apply p = p := Option.map_id_apply

theorem Hub.recoded_same : Hub.recoded .same = id := by
  funext h
  have hroom : Room.recoded .same = id := by
    funext r
    rw [Room.recoded, Recoding.apply_same]
    rfl
  rw [Hub.recoded, hroom, List.map_id]
  rfl

theorem ClientPacket.recoded_same (p : ClientPacket) : p.recoded .same = p := by
  cases p with
  | roomCreate => simp only [recoded, Recoding.apply_same]
  | roomJoin => simp only [recoded, Recoding.apply_same]
  | roomSettings => simp only [recoded, SettingsPatch.recoded, Recoding.apply_same]
  | _ => rfl

theorem Routine.Parallel.oblivious {α : Type} {r : Routine α}
    (h : Parallel (Hub.recoded .same) r r) :
    r.Oblivious := by
  rwa [Hub.recoded_same] at h

theorem oblivious_login (profile : Profile) (token : String) (line : Nat) :
    (login profile token line).Oblivious :=
  (parallel_login .same profile token line).oblivious

theorem oblivious_disconnect (token : String) : (disconnect token).Oblivious :=
  (parallel_disconnect .same token).oblivious

theorem oblivious_shutdown : shutdown.Oblivious := (parallel_shutdown .same).oblivious

theorem Session.oblivious_dispatch (s : Session) (p : ClientPacket) : (s.dispatch p).Oblivious := by
  have h := s.parallel_dispatch .same p
  rw [p.recoded_same] at h
  exact h.oblivious

end RhythmLobby
