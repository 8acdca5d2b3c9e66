import RhythmLobby.Proofs.Hub.Hearing
import RhythmLobby.Proofs.Room.Calm
import RhythmLobby.Proofs.Room.Packets
import RhythmLobby.Proofs.Session.Presence

/-!
# Who is told of users that come online and go

* `Routine.Mute`                     a task that nobody hears of;
* `Routine.Discreet`                 a task that tells nobody who comes online or goes;
* `Routine.Aside`                    a task that has nothing to do with rooms either;
* `Session.discreet_dispatch`        whatever a session asks for;
* `login_does`, `disconnect_does`    what a login and a teardown tell, and whom;
* `Directory.Coherent.heard_all`     a packet for all, as one session hears it;
* `Hub.heard_sessionsOf`             a packet for some users.
-/

namespace RhythmLobby

/-- nothing about who is online, nor that the server stops, and no hang-up -/
def LineEvent.Discreet : LineEvent → Prop
  | .frame (.userConnected _) | .frame (.userDisconnected _) | .frame (.usersOnline _) => False
  | .frame (.error message) => message ≠ "server is shutting down"
  | .hangUp => False
  | _ => True

/-- news of a room -/
def LineEvent.OfRoom : LineEvent → Prop
  | .frame (.roomInfo _) | .frame (.roomUpdate _) | .frame (.roomPlayerJoined ..)
  | .frame (.roomPlayerLeft ..) | .frame (.roomClosed _) => True
  | _ => False

namespace Routine

variable {α β γ : Type}

/-! ## Tasks that nobody hears of -/

/-- whoever is online stays so, and no line hears anything -/
def Mute (r : Routine α) : Prop :=
  r.Within (fun h h' => h'.directory = h.directory) fun e => ∀ n, e.at n = []

theorem mute_done (x : α) : (done x).Mute := trivial

theorem mute_read (f : Hub → α) : (read f).Mute := within_read f fun _ => rfl

theorem mute_update (u : Cache.Update) : (update u).Mute := within_update fun _ => rfl

theorem mute_change {f : Hub → Hub} (hf : ∀ h, (f h).directory = h.directory) :
    (change f).Mute := within_change hf

theorem mute_transact {f : Hub → β × Hub} (hf : ∀ h, (f h).2.directory = h.directory) :
    (transact f).Mute := within_transact hf

theorem mute_settling (turn : β → Hub → Turn β γ) (found : β) : (settling turn found).Mute := by
  refine within_settling found fun found h => ?_
  cases turn found h with
  | stop c => exact trivial
  | look found' => exact trivial
  | update u found' => exact fun _ => rfl

theorem Mute.bind {r : Routine α} {f : α → Routine β} (hr : r.Mute) (hf : ∀ x, (f x).Mute) :
    (r.bind f).Mute := within_bind hr hf

theorem mute_each {f : α → Routine Unit} (hf : ∀ x, (f x).Mute) (xs : List α) :
    (each f xs).Mute := within_each fun x _ => hf x

/-! ## Discreet tasks -/

/-- whoever is online stays so, and nobody hears otherwise -/
def Discreet (r : Routine α) : Prop :=
  r.Within (fun h h' => h'.directory = h.directory) fun e => ∀ n, ∀ event ∈ e.at n, event.Discreet

theorem Mute.discreet {r : Routine α} (hr : r.Mute) : r.Discreet :=
  hr.mono (fun _ _ => id) fun e he n event hevent => by
    rw [he n] at hevent
    cases hevent

theorem discreet_done (x : α) : (done x).Discreet := trivial

theorem discreet_read (f : Hub → α) : (read f).Discreet := (mute_read f).discreet

theorem Discreet.bind {r : Routine α} {f : α → Routine β} (hr : r.Discreet)
    (hf : ∀ x, (f x).Discreet) : (r.bind f).Discreet := within_bind hr hf

/-! ## Tasks that leave rooms alone -/

/-- rooms and those who are online stay as they are, and nobody hears otherwise -/
def Aside (r : Routine α) : Prop :=
  r.Within (fun h h' => h'.directory = h.directory ∧ h'.openRooms = h.openRooms ∧
    h'.rooms = h.rooms) fun e => ∀ n, ∀ event ∈ e.at n, event.Discreet ∧ ¬ event.OfRoom

theorem Aside.discreet {r : Routine α} (hr : r.Aside) : r.Discreet :=
  hr.mono (fun _ _ h => h.1) fun _ he n event hevent => (he n event hevent).1

theorem aside_done (x : α) : (done x).Aside := trivial

theorem aside_read (f : Hub → α) : (read f).Aside := within_read f fun _ => ⟨rfl, rfl, rfl⟩

theorem aside_transact {f : Hub → β × Hub} (hf : ∀ h, (f h).2.directory = h.directory ∧
    (f h).2.openRooms = h.openRooms ∧ (f h).2.rooms = h.rooms) : (transact f).Aside :=
  within_transact hf

theorem aside_emit {e : Effect} (he : ∀ n, e.at n = []) : (emit e).Aside :=
  within_emit fun n event hevent => by
    rw [he n] at hevent
    cases hevent

theorem aside_settling (turn : β → Hub → Turn β γ) (found : β) : (settling turn found).Aside := by
  refine within_settling found fun found h => ?_
  cases turn found h with
  | stop c => exact trivial
  | look found' => exact trivial
  | update u found' =>
    intro n event hevent
    cases hevent

theorem Aside.bind {r : Routine α} {f : α → Routine β} (hr : r.Aside) (hf : ∀ x, (f x).Aside) :
    (r.bind f).Aside := within_bind hr hf

section Does

variable {r : Routine α} {w w' : World} {x : α} {es : List Effect}

theorem Within.directory {acts : Effect → Prop}
    (hr : r.Within (fun h h' => h'.directory = h.directory) acts) (h : r.Ends w x w') :
    w'.hub.directory = w.hub.directory := by
  refine Within.induction (P := fun v => v.hub.directory = w.hub.directory) hr ?_ ?_ h rfl
  · exact fun v h hv hm => hm.trans hv
  · intro v e hv _
    rw [Effect.perform_hub]
    exact hv

theorem Mute.does (hr : r.Mute) (h : r.Does w x w' es) :
    w'.hub.directory = w.hub.directory ∧ ∀ n, heardAt n es = [] :=
  ⟨Within.directory hr h.ends, fun n => heardAt_eq_nil fun e he => Within.effects hr h e he n⟩

theorem Discreet.does (hr : r.Discreet) (h : r.Does w x w' es) :
    w'.hub.directory = w.hub.directory ∧ ∀ n, ∀ event ∈ heardAt n es, event.Discreet := by
  refine ⟨Within.directory hr h.ends, fun n event hevent => ?_⟩
  obtain ⟨e, he, hevent⟩ := mem_heardAt.mp hevent
  exact Within.effects hr h e he n event hevent

end Does

end Routine

open Routine

/-! ## Rooms -/

namespace RoomRef

variable {β : Type} (ref : RoomRef)

theorem mute_writeListing (l : Listing) : (ref.writeListing l).Mute :=
  (mute_update _).bind fun _ => mute_settling _ _

theorem mute_writePlayer (r : PlayerRecord) : (ref.writePlayer r).Mute :=
  (mute_update _).bind fun _ => mute_settling _ _

theorem mute_publish : ref.publish.Mute :=
  (mute_read _).bind fun _ => (ref.mute_writeListing _).bind fun _ =>
    mute_each ref.mute_writePlayer _

theorem mute_change (op : Room → Except RoomError (β × Room)) : (ref.change op).Mute := by
  refine mute_transact fun h => ?_
  cases op (h.room ref) with
  | error e => rfl
  | ok p => rfl

theorem mute_changePlayer (op : Room → Except RoomError (PlayerRecord × Room)) :
    (ref.changePlayer op).Mute := by
  refine (ref.mute_change op).bind fun changed => ?_
  cases changed with
  | error e => exact mute_done _
  | ok record => exact (ref.mute_writePlayer record).bind fun _ => mute_done _

theorem mute_changeListing (op : Room → Except RoomError Room) :
    (ref.changeListing op).Mute := by
  refine Mute.bind (ref.mute_change _) fun changed => ?_
  cases changed with
  | error e => exact mute_done _
  | ok l => exact (ref.mute_writeListing l).bind fun _ => mute_done _

theorem mute_changeAll (op : Room → Except RoomError Room) : (ref.changeAll op).Mute := by
  refine Mute.bind (ref.mute_change _) fun changed => ?_
  cases changed with
  | error e => exact mute_done _
  | ok _ => exact ref.mute_publish.bind fun _ => mute_done _

theorem mute_memberChange (op : Room → Except RoomError (PlayerRecord × Room))
    (f : Except RoomError PlayerRecord → Except RoomError β) :
    ((ref.changePlayer op).bind fun x => .done (f x)).Mute :=
  (ref.mute_changePlayer op).bind fun _ => mute_done _

theorem mute_leave (user : Int32) : (ref.leave user).Mute := by
  refine (mute_transact fun _ => rfl).bind fun left => ?_
  obtain ⟨outcome, l⟩ := left
  cases outcome with
  | notMember => exact mute_done _
  | emptied => exact (mute_update _).bind fun _ => mute_done _
  | left => exact (mute_update _).bind fun _ => (mute_settling _ _).bind fun _ => mute_done _
  | hostPassed host =>
    refine (mute_update _).bind fun _ => (mute_settling _ _).bind fun _ => ?_
    exact (ref.mute_writeListing l).bind fun _ => mute_done _

theorem mute_close (caller : Option Int32) : (ref.close caller).Mute := by
  refine Mute.bind (ref.mute_change _) fun closed => ?_
  cases closed with
  | error e => exact mute_done _
  | ok members => exact (mute_update _).bind fun _ => mute_done _

end RoomRef

namespace Rooms

theorem mute_gauge : gauge.Mute := (mute_read _).bind fun _ => within_emit fun _ => rfl

theorem mute_roomOf (user : Int32) : (roomOf user).Mute := by
  refine (mute_read _).bind fun place => ?_
  cases place with
  | none => exact mute_done _
  | some room => exact mute_read _

theorem directory_reserve (user room : Int32) (h : Hub) :
    (reserve user room h).2.directory = h.directory := by
  unfold reserve
  split <;> rfl

theorem directory_release (user room : Int32) (h : Hub) :
    (release user room h).directory = h.directory := by
  unfold release
  split <;> rfl

theorem mute_create (request : RoomRequest) (host : PlayerProfile) :
    (create request host).Mute := by
  unfold create
  split
  · exact mute_done _
  refine (mute_transact fun _ => rfl).bind fun id => ?_
  refine (mute_transact fun h => directory_reserve host.userId id h).bind fun free => ?_
  split
  · exact mute_done _
  refine (mute_transact fun _ => rfl).bind fun ref => ?_
  exact mute_gauge.bind fun _ => ref.mute_publish.bind fun _ => mute_done _

theorem mute_join (room : Int32) (profile : PlayerProfile) (guess : Option String) :
    (join room profile guess).Mute := by
  refine (mute_read _).bind fun found => ?_
  cases found with
  | none => exact mute_done _
  | some ref =>
    refine (mute_transact fun h => directory_reserve profile.userId room h).bind fun free => ?_
    split
    · exact mute_done _
    refine (ref.mute_memberChange (·.join profile guess) _).bind fun joined => ?_
    cases joined with
    | error e =>
      exact (mute_change fun h => directory_release profile.userId room h).bind fun _ =>
        mute_done _
    | ok _ => exact mute_done _

theorem mute_leave (user : Int32) : (leave user).Mute := by
  refine (mute_transact fun _ => rfl).bind fun place => ?_
  cases place with
  | none => exact mute_done _
  | some room =>
    refine (mute_read _).bind fun found => ?_
    cases found with
    | none => exact mute_done _
    | some ref =>
      refine (ref.mute_leave user).bind fun outcome => ?_
      dsimp only
      split
      · exact (mute_change fun _ => rfl).bind fun _ => mute_gauge.bind fun _ => mute_done _
      · exact mute_done _

theorem mute_remove (room : Int32) (caller : Option Int32) : (remove room caller).Mute := by
  refine (mute_read _).bind fun found => ?_
  cases found with
  | none => exact mute_done _
  | some ref =>
    refine (ref.mute_close caller).bind fun closed => ?_
    cases closed with
    | error e => exact mute_done _
    | ok members =>
      refine (mute_change fun _ => rfl).bind fun _ => ?_
      refine (mute_each (fun user => mute_change (directory_release user room)) members).bind
        fun _ => ?_
      exact mute_gauge.bind fun _ => mute_done _

end Rooms

/-! ## News -/

theorem Session.discreet_send (s : Session) {p : ServerPacket}
    (hp : (LineEvent.frame p).Discreet) : (s.send p).Discreet := by
  refine within_emit fun n event hevent => ?_
  rw [(LineEvent.mem_at.mp hevent).2]
  exact hp

theorem discreet_fanOut {p : ServerPacket} (hp : (LineEvent.frame p).Discreet)
    (sessions : List Session) : (emit (.fanOut p sessions)).Discreet := by
  refine within_emit fun n event hevent => ?_
  obtain ⟨s, -, hevent⟩ := List.mem_flatMap.mp hevent
  rw [(LineEvent.mem_at.mp hevent).2]
  exact hp

namespace RoomNews

theorem discreet_notify (users : List Int32) {p : ServerPacket}
    (hp : (LineEvent.frame p).Discreet) : (notify users p).Discreet :=
  (discreet_read _).bind fun _ => discreet_fanOut hp _

theorem discreet_sendUpdate (ref : RoomRef) : (sendUpdate ref).Discreet :=
  (discreet_read _).bind fun _ => (discreet_read _).bind fun _ => discreet_notify _ (by trivial)

theorem discreet_leaveCurrent (user : Int32) : (leaveCurrent user).Discreet := by
  refine (Rooms.mute_leave user).discreet.bind fun left => ?_
  rcases left with _ | ⟨ref, outcome⟩
  · exact discreet_done _
  cases outcome with
  | notMember => exact discreet_done _
  | emptied => exact discreet_done _
  | left =>
    exact (discreet_read _).bind fun _ => (discreet_notify _ (by trivial)).bind fun _ =>
      discreet_done _
  | hostPassed host =>
    refine (discreet_read _).bind fun _ => (discreet_notify _ (by trivial)).bind fun _ => ?_
    exact (discreet_sendUpdate ref).bind fun _ => discreet_done _

theorem discreet_closeRoom (ref : RoomRef) : (closeRoom ref).Discreet := by
  refine (Rooms.mute_remove ref.id none).discreet.bind fun closed => ?_
  cases closed with
  | error e => exact discreet_done _
  | ok members => exact discreet_notify _ trivial

end RoomNews

/-! ## Packets -/

namespace Session

variable (s : Session)

theorem aside_modifyState (f : Hub → SessionState → SessionState) :
    (Routine.change fun h => h.modifyState s (f h)).Aside := within_change fun _ => ⟨rfl, rfl, rfl⟩

theorem aside_send {p : ServerPacket}
    (hp : (LineEvent.frame p).Discreet ∧ ¬ (LineEvent.frame p).OfRoom) : (s.send p).Aside := by
  refine within_emit fun n event hevent => ?_
  rw [(LineEvent.mem_at.mp hevent).2]
  exact hp

theorem aside_changeStatus (status : ClientStatus) : (s.changeStatus status).Aside := by
  have hset : (s.setStatus status).Aside := by
    refine (aside_transact fun _ => ⟨rfl, rfl, rfl⟩).bind fun retired => ?_
    split
    · exact aside_done _
    · exact (aside_emit fun _ => rfl).bind fun _ => aside_settling _ _
  have hannounce : (announce (.statusUpdate s.id status)).Aside := by
    refine (aside_read _).bind fun sessions => within_emit fun n event hevent => ?_
    obtain ⟨_, -, hevent⟩ := List.mem_flatMap.mp hevent
    rw [(LineEvent.mem_at.mp hevent).2]
    exact ⟨trivial, not_false⟩
  refine hset.bind fun ok => ?_
  split
  · exact hannounce.bind fun _ => aside_done _
  · exact (aside_settling _ _).bind fun _ => aside_done _

theorem aside_sendStats : s.sendStats.Aside := by
  refine Aside.bind ?_ fun loaded => ?_
  · refine (aside_read _).bind fun loaded => ?_
    cases loaded with
    | error e => exact aside_done _
    | ok stats => exact (s.aside_modifyState _).bind fun _ => aside_done _
  · cases loaded with
    | error e => exact aside_done _
    | ok _ =>
      exact (aside_read _).bind fun _ =>
        (s.aside_send ⟨by trivial, by exact not_false⟩).bind fun _ => aside_done _

theorem aside_handle {p : ClientPacket} (hp : ¬ p.OfRoom) : (s.handle p).Aside := by
  cases p with
  | login name password => exact aside_done _
  | ping => exact (s.aside_send ⟨by trivial, by exact not_false⟩).bind fun _ => aside_done _
  | pong =>
    exact (s.aside_modifyState fun h state => { state with lastPong := h.clock }).bind fun _ =>
      aside_done _
  | status status => exact s.aside_changeStatus status
  | processes list =>
    exact (s.aside_modifyState fun _ state => { state with processes := list }).bind fun _ =>
      aside_done _
  | statsRequest => exact s.aside_sendStats
  | _ => exact absurd trivial hp

theorem discreet_createRoom (request : RoomRequest) : (s.createRoom request).Discreet := by
  refine (discreet_read _).bind fun muted => ?_
  split
  · exact discreet_done _
  refine (Rooms.mute_create request _).discreet.bind fun made => ?_
  cases made with
  | error e => exact discreet_done _
  | ok ref =>
    exact (discreet_read _).bind fun _ =>
      (s.discreet_send (by trivial)).bind fun _ => discreet_done _

theorem discreet_joinRoom (room : Int32) (guess : Option String) :
    (s.joinRoom room guess).Discreet := by
  refine (Rooms.mute_join room _ guess).discreet.bind fun joined => ?_
  cases joined with
  | error e => exact discreet_done _
  | ok ref =>
    refine (discreet_read _).bind fun _ => (s.discreet_send (by trivial)).bind fun _ => ?_
    exact (discreet_read _).bind fun _ => (RoomNews.discreet_notify _ (by trivial)).bind fun _ =>
      discreet_done _

theorem discreet_leaveRoom : s.leaveRoom.Discreet := by
  refine (RoomNews.discreet_leaveCurrent s.id).bind fun left => ?_
  split
  · exact discreet_done _
  · exact discreet_done _

theorem discreet_inRoom {task : RoomRef → Routine (Except Refusal Unit)}
    (htask : ∀ ref, (task ref).Discreet) : (s.inRoom task).Discreet := by
  refine (Rooms.mute_roomOf s.id).discreet.bind fun found => ?_
  cases found with
  | none => exact discreet_done _
  | some ref => exact htask ref

theorem discreet_changeRoom {op : RoomRef → Routine (Except RoomError Unit)}
    (hop : ∀ ref, (op ref).Mute) : (s.changeRoom op).Discreet := by
  refine s.discreet_inRoom fun ref => (hop ref).discreet.bind fun changed => ?_
  cases changed with
  | error e => exact discreet_done _
  | ok _ => exact (RoomNews.discreet_sendUpdate ref).bind fun _ => discreet_done _

theorem discreet_finishMatch (winner : Option Int32) : (s.finishMatch winner).Discreet := by
  have hfinish : ∀ ref winner, (finishMatch.finishIn s ref winner).Discreet := by
    intro ref winner
    refine (ref.mute_changeAll (·.finish s.id)).discreet.bind fun finished => ?_
    have hend : ((RoomNews.sendUpdate ref).bind fun _ =>
        .done (.ok () : Except Refusal Unit)).Discreet :=
      (RoomNews.discreet_sendUpdate ref).bind fun _ => discreet_done _
    cases finished with
    | error e => exact discreet_done _
    | ok _ =>
      cases winner with
      | none => exact hend
      | some user =>
        exact (ref.mute_memberChange (·.addWin user) _).discreet.bind fun _ => hend
  refine s.discreet_inRoom fun ref => ?_
  cases winner with
  | none => exact hfinish ref none
  | some user =>
    refine (discreet_read _).bind fun members => ?_
    split
    · exact hfinish ref (some user)
    · exact discreet_done _

theorem discreet_closeRoom : s.closeRoom.Discreet := by
  refine s.discreet_inRoom fun ref => ?_
  refine (Rooms.mute_remove ref.id (some s.id)).discreet.bind fun closed => ?_
  cases closed with
  | error e => exact discreet_done _
  | ok members => exact (RoomNews.discreet_notify _ (by trivial)).bind fun _ => discreet_done _

theorem discreet_handle (p : ClientPacket) : (s.handle p).Discreet := by
  cases p with
  | roomCreate name password maxPlayers map => exact s.discreet_createRoom _
  | roomJoin room password => exact s.discreet_joinRoom room password
  | roomLeave => exact s.discreet_leaveRoom
  | roomReady ready =>
    exact s.discreet_changeRoom fun ref =>
      Mute.bind (ref.mute_changePlayer _) fun _ => mute_done _
  | roomHasMap hasMap =>
    exact s.discreet_changeRoom fun ref =>
      Mute.bind (ref.mute_changePlayer _) fun _ => mute_done _
  | roomMods modifiers =>
    exact s.discreet_changeRoom fun ref =>
      Mute.bind (ref.mute_changePlayer _) fun _ => mute_done _
  | roomSettings patch => exact s.discreet_changeRoom fun ref => ref.mute_changeListing _
  | roomMap map => exact s.discreet_changeRoom fun ref => ref.mute_changeAll _
  | roomStart => exact s.discreet_changeRoom fun ref => ref.mute_changeListing _
  | roomFinish winner => exact s.discreet_finishMatch winner
  | roomHost user => exact s.discreet_changeRoom fun ref => ref.mute_changeListing _
  | roomClose => exact s.discreet_closeRoom
  | _ => exact (s.aside_handle (by exact not_false)).discreet

theorem dispatch_counted (p : ClientPacket) : ∃ count : Except Refusal Unit → Routine _,
    s.dispatch p = (s.handle p).bind count ∧ ∀ result, (count result).Aside := by
  refine ⟨_, rfl, fun result => ?_⟩
  have hnote : ∀ happening, (emit (.note happening)).Aside := fun _ => aside_emit fun _ => rfl
  cases result with
  | error e => exact (hnote _).bind fun _ => (hnote _).bind fun _ => aside_done _
  | ok _ => exact (hnote _).bind fun _ => aside_done _

theorem discreet_dispatch (p : ClientPacket) : (s.dispatch p).Discreet := by
  obtain ⟨count, heq, hcount⟩ := s.dispatch_counted p
  rw [heq]
  exact (s.discreet_handle p).bind fun result => (hcount result).discreet

end Session

/-! ## Users come and go -/

section Presence

variable {w w' : World} {es : List Effect}

theorem mute_gaugeUsers : gaugeUsers.Mute := (mute_read _).bind fun _ => within_emit fun _ => rfl

theorem announce_does {p : ServerPacket} {x : Nat} (h : (announce p).Does w x w' es) :
    w'.hub = w.hub ∧ es = [.fanOut p w.hub.directory.all] := by
  replace h := does_read_bind h
  obtain ⟨-, rfl, rfl⟩ := does_emit h
  exact ⟨Effect.perform_hub _ _, rfl⟩

/-- At the end of a teardown everybody hears that the user has gone, unless it has a newer session.
Then the line is hung up. -/
theorem Session.farewell_does {s : Session} {x : Unit} (h : s.farewell.Does w x w' es) :
    w'.hub = w.hub ∧ ∀ n, heardAt n es =
      (if w.hub.directory.ofUser s.id = none then
        heardAt n [.fanOut (.userDisconnected s.id) w.hub.directory.all] else []) ++
      LineEvent.hangUp.at s.line n := by
  refine ⟨(s.silent_farewell.ends h.ends).1, fun n => ?_⟩
  obtain ⟨es₁, es₂, rfl, _, w₁, h₁, h₂⟩ := does_bind h
  have hmemory : w₁.hub = w.hub := (silent_gaugeUsers.ends h₁.ends).1
  rw [heardAt_append, (mute_gaugeUsers.does h₁).2 n, List.nil_append, ← hmemory]
  replace h₂ := does_read_bind h₂
  dsimp only at h₂
  split at h₂
  · rename_i hgone
    obtain ⟨es₃, es₄, rfl, _, w₂, h₃, h₄⟩ := does_bind h₂
    obtain ⟨-, rfl⟩ := announce_does h₃
    obtain ⟨-, -, rfl⟩ := does_emit h₄
    rw [if_pos (Option.isNone_iff_eq_none.mp hgone), heardAt_append,
      heardAt_singleton n (.hangUp _)]
    rfl
  · rename_i hstays
    obtain ⟨-, -, rfl⟩ := does_emit h₂
    rw [if_neg (mt Option.isNone_iff_eq_none.mpr hstays)]
    exact heardAt_singleton n _

/-- A teardown finds nobody and tells nothing, or takes a session out.  Its room hears of that, then
everybody hears that the user has gone, unless it has a newer session, and the line is hung up. -/
theorem disconnect_does {token : String} {x : Unit} (hd : w.hub.directory.Coherent)
    (h : (disconnect token).Does w x w' es) :
    (w.hub.directory.ofToken token = none ∧ w' = w ∧ es = []) ∨
    ∃ s d y w₁ es₁ es₂, s.token = token ∧ w.hub.directory.Removed s d ∧
      (RoomNews.leaveCurrent s.id).Does { w with
        hub := ({ w.hub with directory := d }).modifyState s fun state =>
          { state with retired := true } } y w₁ es₁ ∧
      w'.hub = w₁.hub ∧ es = es₁ ++ es₂ ∧ ∀ n, heardAt n es₂ =
        (if w'.hub.directory.ofUser s.id = none then
          heardAt n [.fanOut (.userDisconnected s.id) w'.hub.directory.all] else []) ++
        LineEvent.hangUp.at s.line n := by
  rw [disconnect_eq] at h
  replace h := does_transact_bind h
  rcases deregister_cases hd token with ⟨heq, hnone⟩ | ⟨s, d, heq, htoken, hremoved⟩
  · rw [heq] at h
    obtain ⟨-, rfl, rfl⟩ := does_done h
    exact .inl ⟨hnone, rfl, rfl⟩
  · rw [heq] at h
    obtain ⟨es₁, es₂, hes, y, w₁, h₁, h₂⟩ := does_bind (does_change_bind h)
    obtain ⟨es₃, rfl, h₃⟩ := does_emit_bind h₂
    obtain ⟨hmemory, hheard⟩ := Session.farewell_does h₃
    rw [Effect.perform_hub] at hmemory hheard
    refine .inr ⟨s, d, y, w₁, es₁, _, htoken, hremoved, h₁, hmemory, hes, fun n => ?_⟩
    rw [heardAt_cons, hheard n, hmemory]
    rfl

/-- At the end of a login the session hears who is online, itself included, and all others hear of
its user. -/
theorem Session.greet_does {s : Session} {x : Except RegistryError Session}
    (h : s.greet.Does w x w' es) : x = .ok s ∧ w'.hub = w.hub ∧ ∀ n, heardAt n es =
      (LineEvent.frame (.welcome s.toPublic s.token)).at s.line n ++
      ((LineEvent.frame (.usersOnline (w.hub.directory.all.map Session.toPublic))).at s.line n ++
      heardAt n [.fanOut (.userConnected s.toPublic) (w.hub.directory.all.filter (· ≠ s))]) := by
  obtain ⟨hx, hmemory, -⟩ := s.greet_ends h.ends
  refine ⟨hx, hmemory, fun n => ?_⟩
  obtain ⟨_, rfl, h₁⟩ := does_emit_bind h
  obtain ⟨_, rfl, h₂⟩ := does_emit_bind (does_read_bind h₁)
  obtain ⟨_, rfl, h₃⟩ := does_emit_bind h₂
  obtain ⟨_, rfl, h₄⟩ := does_emit_bind (does_read_bind h₃)
  obtain ⟨_, rfl, h₅⟩ := does_emit_bind h₄
  obtain ⟨_, rfl, h₆⟩ := does_emit_bind h₅
  obtain ⟨es₁, es₂, rfl, _, w₁, h₇, h₈⟩ := does_bind h₆
  obtain ⟨-, -, rfl⟩ := does_done h₈
  simp only [heardAt_cons, heardAt_nil, Effect.at, List.append_nil, List.nil_append,
    (mute_gaugeUsers.does h₇).2 n, Effect.perform_hub]

/-- A login is refused and tells nothing, or it enters a new session.  An old session of the user is
told so and torn down, and then the new one is greeted. -/
theorem login_does {profile : Profile} {token : String} {line : Nat}
    {x : Except RegistryError Session} (hc : w.hub.directory.Coherent)
    (h : (login profile token line).Does w x w' es) :
    (x = .error .duplicateToken ∧ es = [] ∧
      w' = { w with hub := (w.hub.addSession profile token line).2 }) ∨
    ∃ s d w₁ es₁ es₂, s = (w.hub.addSession profile token line).1 ∧ x = .ok s ∧
      w.hub.directory.Entered s d ∧ s.greet.Does w₁ x w' es₂ ∧ es = es₁ ++ es₂ ∧
      match w.hub.directory.ofUser s.id with
      | none => w₁ = { w with hub := w.hub.entering profile token line d } ∧ es₁ = []
      | some old => ∃ w₀ es₀, w₀.hub = w.hub.entering profile token line d ∧
          w₀.cache = w.cache ∧ d.ofToken old.token = some old ∧
          (disconnect old.token).Does w₀ () w₁ es₀ ∧
          es₁ = .deliver (.error "logged in from another location") old :: es₀ := by
  rw [login_eq] at h
  replace h := does_transact_bind (does_transact_bind h)
  generalize hs : (w.hub.addSession profile token line).1 = s at h
  rcases register_cases s (w.hub.addSession profile token line).2 with ⟨heq, -⟩ | ⟨d, heq, hd⟩
  · rw [heq] at h
    obtain ⟨rfl, rfl, rfl⟩ := does_done h
    exact .inl ⟨rfl, rfl, rfl⟩
  · rw [heq] at h
    have hprevious : (w.hub.addSession profile token line).2.directory.ofUser s.id =
        w.hub.directory.ofUser s.id := rfl
    rw [hprevious] at h
    cases ho : w.hub.directory.ofUser s.id with
    | none =>
      rw [ho] at h
      refine .inr ⟨s, d, _, [], es, rfl, (Session.greet_does h).1, hd, h, rfl, ?_⟩
      rw [ho]
      exact ⟨rfl, rfl⟩
    | some old =>
      rw [ho] at h
      obtain ⟨es₀, hes₀, h₁⟩ := does_emit_bind h
      obtain ⟨es₁, es₂, rfl, _, w₁, h₂, h₃⟩ := does_bind h₁
      refine .inr ⟨s, d, w₁, _ :: es₁, es₂, rfl, (Session.greet_does h₃).1, hd, h₃, hes₀, ?_⟩
      rw [ho]
      refine ⟨_, es₁, ?_, ?_, ?_, h₂, rfl⟩
      · rw [Effect.perform_hub]
        rfl
      · rw [Effect.perform_cache rfl]
      · rw [hd.ofToken, if_neg fun h => hc.ofToken_ne hd.fresh ho h.symm]
        exact hc.known ho

/-- what may be said of each room that closes and of each session that is dismissed may be said of a
shutdown -/
theorem tells_shutdown {T : Hub → List Effect → Hub → Prop} {P : World → Prop} (hT : Chained T)
    (hclose : ∀ ref, (RoomNews.closeRoom ref).Tells P T fun _ => P)
    (hdismiss : ∀ s, (dismiss s).Tells P T fun _ => P) : shutdown.Tells P T fun _ => P := by
  refine tells_bind hT (tells_bind hT (tells_read hT _) fun refs => tells_each hT hclose refs)
    fun _ => ?_
  exact tells_bind hT (tells_read hT _) fun sessions => tells_each hT hdismiss sessions

end Presence

/-! ## Who is told -/

namespace Table

variable {κ ν : Type} [DecidableEq κ] {t : Table κ ν}

theorem mem_values {k : κ} {v : ν} (h : t.get? k = some v) : v ∈ t.values := by
  obtain ⟨e, he, rfl⟩ := Option.map_eq_some_iff.mp h
  exact List.mem_map.mpr ⟨e, List.mem_of_find?_eq_some he, rfl⟩

end Table

/-- a packet for many sessions, as one session hears it that shares its line with none of them -/
theorem heardAt_fanOut {sessions : List Session} {s : Session} (hnodup : sessions.Nodup)
    (happart : ∀ s' ∈ sessions, s'.line = s.line → s' = s) (p : ServerPacket) :
    heardAt s.line [.fanOut p sessions] = if s ∈ sessions then [.frame p] else [] := by
  rw [heardAt_singleton, Effect.at]
  induction sessions with
  | nil => rfl
  | cons s' rest ih =>
    rw [List.nodup_cons] at hnodup
    rw [List.flatMap_cons, ih hnodup.2 fun s₁ hs₁ => happart s₁ (List.mem_cons_of_mem _ hs₁)]
    unfold LineEvent.at
    by_cases hline : s'.line = s.line
    · cases happart s' (List.mem_cons_self ..) hline
      rw [if_pos rfl, if_neg hnodup.1, if_pos (List.mem_cons_self ..)]
      rfl
    · have hne : s ≠ s' := fun h => hline (h ▸ rfl)
      rw [if_neg hline, List.nil_append]
      simp only [List.mem_cons, hne, false_or]

namespace Directory

variable {d : Directory} {s : Session}

/-- no two users share a line -/
def Apart (d : Directory) : Prop :=
  ∀ {u v s s'}, d.ofUser u = some s → d.ofUser v = some s' → s.line = s'.line → s = s'

theorem Apart.removed {d' : Directory} (ha : d.Apart) (hr : d.Removed s d') : d'.Apart := by
  intro u v s₁ s₂ hu hv hline
  rw [hr.ofUser] at hu hv
  split at hu
  · cases hu
  · split at hv
    · cases hv
    · exact ha hu hv hline

theorem Apart.entered {d' : Directory} (ha : d.Apart) (he : d.Entered s d')
    (hfree : ∀ {u s'}, d.ofUser u = some s' → s'.line ≠ s.line) : d'.Apart := by
  intro u v s₁ s₂ hu hv hline
  rw [he.ofUser] at hu hv
  split at hu
  · cases hu
    split at hv
    · cases hv
      rfl
    · exact absurd hline.symm (hfree hv)
  · split at hv
    · cases hv
      exact absurd hline (hfree hu)
    · exact ha hu hv hline

theorem Coherent.ofUser_of_mem (hd : d.Coherent) {e : Int32 × Session}
    (he : e ∈ d.byUser.entries) : d.ofUser e.2.id = some e.2 := by
  have hu : d.ofUser e.1 = some e.2 := Table.get?_of_mem he
  rw [hd.user hu]
  exact hu

theorem Coherent.mem_all_iff (hd : d.Coherent) : s ∈ d.all ↔ d.ofUser s.id = some s := by
  constructor
  · intro hs
    obtain ⟨e, he, rfl⟩ := List.mem_map.mp hs
    exact hd.ofUser_of_mem he
  · exact Table.mem_values

theorem Coherent.nodup_ids (hd : d.Coherent) : (d.all.map Session.id).Nodup := by
  have hids : d.all.map Session.id = d.byUser.keys := by
    show (d.byUser.entries.map (·.2)).map Session.id = d.byUser.entries.map (·.1)
    rw [List.map_map]
    exact List.map_congr_left fun e he => hd.user (Table.get?_of_mem he)
  rw [hids]
  exact d.byUser.nodup

theorem Coherent.nodup_all (hd : d.Coherent) : d.all.Nodup :=
  List.Pairwise.of_map Session.id (fun _ _ h heq => h (heq ▸ rfl)) hd.nodup_ids

theorem Coherent.heard_all (hd : d.Coherent) (ha : d.Apart) (hs : d.ofUser s.id = some s)
    (p : ServerPacket) : heardAt s.line [.fanOut p d.all] = [.frame p] := by
  rw [heardAt_fanOut hd.nodup_all fun s' hs' hline => ha (hd.mem_all_iff.mp hs') hs hline,
    if_pos (hd.mem_all_iff.mpr hs)]

theorem Coherent.heard_others (hd : d.Coherent) (ha : d.Apart) (hs : d.ofUser s.id = some s)
    (p : ServerPacket) (s₀ : Session) :
    heardAt s.line [.fanOut p (d.all.filter (· ≠ s₀))] = if s = s₀ then [] else [.frame p] := by
  rw [heardAt_fanOut (hd.nodup_all.filter _) fun s' hs' hline =>
    ha (hd.mem_all_iff.mp (List.mem_filter.mp hs').1) hs hline]
  by_cases h : s = s₀
  · simp [h]
  · simp [h, hd.mem_all_iff.mpr hs]

end Directory

/-- a packet for those of some users that are online -/
theorem Hub.heard_sessionsOf {h : Hub} {s : Session} (hd : h.directory.Coherent)
    (ha : h.directory.Apart) (hs : h.directory.ofUser s.id = some s) {users : List Int32}
    (hnodup : users.Nodup) (p : ServerPacket) :
    heardAt s.line [.fanOut p (h.sessionsOf users)] =
      if s.id ∈ users then [.frame p] else [] := by
  have hfound : ∀ {s'}, s' ∈ h.sessionsOf users ↔ ∃ u ∈ users, h.directory.ofUser u = some s' :=
    List.mem_filterMap
  have hsessions : (h.sessionsOf users).Nodup := by
    refine List.Pairwise.filterMap _ (fun u u' hne s₁ h₁ s₂ h₂ heq => hne ?_) hnodup
    rw [← hd.user h₁, ← hd.user h₂, heq]
  have hmem : s ∈ h.sessionsOf users ↔ s.id ∈ users := by
    rw [hfound]
    constructor
    · intro hexists
      obtain ⟨u, hu, hus⟩ := hexists
      rwa [hd.user hus]
    · exact fun hu => ⟨s.id, hu, hs⟩
  rw [heardAt_fanOut hsessions fun s' hs' hline => ?_]
  · simp only [hmem]
  · obtain ⟨u, -, hu⟩ := hfound.mp hs'
    exact ha hu hs hline

end RhythmLobby
