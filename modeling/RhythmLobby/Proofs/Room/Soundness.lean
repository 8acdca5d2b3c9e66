import RhythmLobby.Proofs.Room.Deeds
import RhythmLobby.Proofs.Session.Lifecycle

/-!
# All rooms of a server are sound

Whatever is done with a server that has just started, all rooms that were ever made on it are sound.

* `Hub.SoundRooms`            all rooms are sound;
* `Session.sound_dispatch`    no packet makes an unsound room;
* `Act.sound`                 nor does any act;
* `Course.sound`              so that rooms always are.
-/

namespace RhythmLobby
open Cache Routine World

/-! ## Rooms in memory -/

/-- all rooms ever made are sound -/
def Hub.SoundRooms (h : Hub) : Prop := ∀ r ∈ h.rooms, r.Sound

namespace Hub.SoundRooms

variable {h h' : Hub} {ref : RoomRef} {r : Room}

theorem room (hs : h.SoundRooms) (hmade : ref.key < h.rooms.length) : (h.room ref).Sound := by
  rw [Hub.room, List.getElem?_eq_getElem hmade]
  exact hs _ (List.getElem_mem hmade)

theorem setRoom (hs : h.SoundRooms) (hr : r.Sound) : (h.setRoom ref r).SoundRooms := by
  intro r' hr'
  rcases List.mem_or_eq_of_mem_set hr' with hold | rfl
  · exact hs r' hold
  · exact hr

theorem enter (hs : h.SoundRooms) (hr : r.Sound) : (Rooms.enter r h).2.SoundRooms := by
  intro r' hr'
  rcases List.mem_append.mp hr' with hold | hnew
  · exact hs r' hold
  · rw [List.mem_singleton.mp hnew]
    exact hr

theorem of_rooms (hs : h.SoundRooms) (hrooms : h'.rooms = h.rooms) : h'.SoundRooms := by
  rw [SoundRooms, hrooms]
  exact hs

end Hub.SoundRooms

/-! ## Tasks -/

section Tasks

variable {n : Nat} {w w' : World}

namespace Rooms

theorem sound_leave {user : Int32} {x : Option (RoomRef × LeaveOutcome)} (hn : w.hub.Numbered n)
    (hs : w.hub.SoundRooms) (h : (leave user).Ends w x w') : w'.hub.SoundRooms := by
  rcases leave_ends h with ⟨-, hhub, -⟩ | ⟨room, ref, outcome, r', -, hr, hl, -, hhub⟩
  · exact hs.of_rooms (hhub ▸ rfl)
  · have hleft : r'.Sound := by
      have := (hs.room (hn.made hr)).leave user
      rwa [hl] at this
    have hset : (w.hub.setRoom ref r').SoundRooms := hs.setRoom hleft
    apply hset.of_rooms
    rw [hhub]
    split <;> rfl

theorem sound_remove {room : Int32} {caller : Option Int32} {x : Except RoomError (List Int32)}
    (hn : w.hub.Numbered n) (hs : w.hub.SoundRooms) (h : (remove room caller).Ends w x w') :
    w'.hub.SoundRooms := by
  rcases remove_ends h with ⟨e, -, hhub⟩ | ⟨ref, members, r', hr, hclose, -, hhub⟩
  · rwa [hhub]
  · have hclosed : r'.Sound := (hs.room (hn.made hr)).close hclose
    have hsame := (sameRooms_releaseAll members room (drop room (w.hub.setRoom ref r'))).1
    have hset : (w.hub.setRoom ref r').SoundRooms := hs.setRoom hclosed
    exact hset.of_rooms (hhub ▸ hsame.rooms)

theorem sound_join {room : Int32} {profile : PlayerProfile} {guess : Option String}
    {x : Except RoomError RoomRef} (hn : w.hub.Numbered n) (hs : w.hub.SoundRooms)
    (h : (join room profile guess).Ends w x w') : w'.hub.SoundRooms := by
  rcases join_ends h with
    ⟨e, -, hhub | ⟨-, hhub⟩⟩ | ⟨ref, record, r', hr, -, hjoin, -, hhub⟩
  · rwa [hhub]
  · exact hs.of_rooms (hhub ▸ (sameRooms_release _ _ _).rooms)
  · have hjoined : r'.Sound := (hs.room (hn.made hr)).join hjoin
    have hset : (w.hub.setRoom ref r').SoundRooms := hs.setRoom hjoined
    exact hset.of_rooms (hhub ▸ rfl)

theorem sound_create {request : RoomRequest} {host : PlayerProfile}
    {x : Except RoomError RoomRef} (hs : w.hub.SoundRooms)
    (h : (create request host).Ends w x w') : w'.hub.SoundRooms := by
  have hwithin : (create request host).Within (fun h h' => h.SoundRooms → h'.SoundRooms)
      fun _ => True := by
    have hcalm : ∀ {α : Type} {r : Routine α}, r.Calm →
        r.Within (fun h h' => h.SoundRooms → h'.SoundRooms) fun _ => True :=
      fun hr => hr.mono (fun _ _ hm hs => hm ▸ hs) fun _ => id
    unfold create
    split
    · exact hcalm (calm_done _)
    rename_i hchecked
    refine within_bind (within_transact fun _ hs => hs.of_rooms rfl) fun id => ?_
    refine within_bind (within_transact fun h hs =>
      hs.of_rooms (sameRooms_reserve host.userId id h).rooms) fun free => ?_
    split
    · exact hcalm (calm_done _)
    · have hnew : (Room.create id (.fresh request.name request.maxPlayers request.map host.userId)
          request.password host).Sound := Room.sound_create hchecked
      refine within_bind (within_transact fun _ hs => hs.enter hnew) fun ref => ?_
      exact hcalm (calm_gauge.bind fun _ => ref.calm_publish.bind fun _ => calm_done _)
  refine Within.induction (P := fun v => v.hub.SoundRooms) hwithin ?_ ?_ h hs
  · exact fun v h hv hm => hm hv
  · intro v e hv _
    rw [Effect.perform_hub]
    exact hv

end Rooms

namespace RoomNews

theorem sound_leaveCurrent {user : Int32} {x : Bool} (hn : w.hub.Numbered n)
    (hs : w.hub.SoundRooms) (h : (leaveCurrent user).Ends w x w') : w'.hub.SoundRooms := by
  obtain ⟨left, w₁, h₁, hsame⟩ := leaveCurrent_ends h
  rw [hsame]
  exact Rooms.sound_leave hn hs h₁

theorem sound_closeRoom {ref : RoomRef} {x : Unit} (hn : w.hub.Numbered n)
    (hs : w.hub.SoundRooms) (h : (closeRoom ref).Ends w x w') : w'.hub.SoundRooms := by
  obtain ⟨closed, w₁, h₁, h⟩ := ends_bind.mp h
  have hclosed := Rooms.sound_remove hn hs h₁
  suffices w'.hub = w₁.hub by rwa [this]
  cases closed with
  | error e => exact (calm_done _).ends h
  | ok members => exact ((calm_notify _ _).bind fun _ => calm_done _).ends h

end RoomNews

/-! ## Packets -/

namespace Session

variable {s : Session} {x : Except Refusal Unit}

theorem sound_handle {p : ClientPacket} (hn : w.hub.Numbered n) (hs : w.hub.SoundRooms)
    (h : (s.handle p).Ends w x w') : w'.hub.SoundRooms := by
  generalize hdeed : w'.hub = h'
  cases hdeed ▸ deed_handle hn h with
  | own => exact hs.of_rooms rfl
  | refused => exact hs
  | changed hplace hchanged =>
    obtain ⟨room, -, hr⟩ := hplace
    exact hs.setRoom (hchanged.sound (hs.room (hn.made hr)))
  | created _ h₁ => exact Rooms.sound_create hs h₁
  | joined h₁ => exact Rooms.sound_join hn hs h₁
  | left h₁ => exact Rooms.sound_leave hn hs h₁
  | closed _ h₁ => exact Rooms.sound_remove hn hs h₁

theorem sound_dispatch {p : ClientPacket} (hn : w.hub.Numbered n) (hs : w.hub.SoundRooms)
    (h : (s.dispatch p).Ends w x w') : w'.hub.SoundRooms := by
  obtain ⟨w₁, h₁, hsame⟩ := handle_of_dispatch h
  rw [hsame]
  exact sound_handle hn hs h₁

end Session

end Tasks

/-! ## Acts -/

section Acts

variable {known : List Session} {n : Nat} {w w' : World} {es : List Effect}

theorem World.Kept.numbered (hk : w.Kept (· ∈ known) n) : ∃ m, w.hub.Numbered m := by
  obtain ⟨m, -, hb, -⟩ := hk.rooms
  exact ⟨m, hb.numbered⟩

theorem sound_disconnect {token : String} {x : Unit} {m : Nat}
    (hd : w.hub.directory.Coherent) (hm : w.hub.Numbered m) (hs : w.hub.SoundRooms)
    (h : (disconnect token).Does w x w' es) : w'.hub.SoundRooms := by
  rcases disconnect_does hd h with
    ⟨-, rfl, -⟩ | ⟨s, d, y, w₁, es₁, es₂, -, -, hleave, hhub, -, -⟩
  · exact hs
  · let h₀ : Hub := ({ w.hub with directory := d }).modifyState s fun state =>
      { state with retired := true }
    have hsame : w.hub.SameRooms h₀ := ⟨rfl, rfl, rfl⟩
    rw [hhub]
    exact RoomNews.sound_leaveCurrent (w := { w with hub := h₀ }) (hsame.numbered hm)
      (hs.of_rooms rfl) hleave.ends

theorem sound_login {profile : Profile} {token : String} {line : Nat}
    {x : Except RegistryError Session} (hk : w.Kept (· ∈ known) n) (hs : w.hub.SoundRooms)
    (h : (login profile token line).Does w x w' es) : w'.hub.SoundRooms := by
  obtain ⟨m, hm⟩ := hk.numbered
  have hd := hk.sessions.orderly.coherent
  rcases login_does hd h with
    ⟨-, -, rfl⟩ | ⟨s, d, w₁, es₁, es₂, -, rfl, hentered, hgreet, -, hold⟩
  · exact hs.of_rooms rfl
  rw [(Session.greet_does hgreet).2.1]
  cases ho : w.hub.directory.ofUser s.id with
  | none =>
    rw [ho] at hold
    exact hs.of_rooms (hold.1 ▸ rfl)
  | some old =>
    rw [ho] at hold
    obtain ⟨w₀, es₀, hhub, -, -, hgone, -⟩ := hold
    have hsame : w.hub.SameRooms w₀.hub := hhub ▸ ⟨rfl, rfl, rfl⟩
    have hd₀ : w₀.hub.directory.Coherent := hhub ▸ hd.entered hentered
    exact sound_disconnect hd₀ (hsame.numbered hm) (hs.of_rooms hsame.rooms) hgone

/-- what has nothing to do with rooms leaves them as they are -/
theorem Routine.Aside.rooms {α : Type} {r : Routine α} {x : α} (hr : r.Aside)
    (h : r.Ends w x w') : w'.hub.rooms = w.hub.rooms := by
  refine Within.induction (P := fun v => v.hub.rooms = w.hub.rooms) hr ?_ ?_ h rfl
  · exact fun v h hv hm => hm.2.2.trans hv
  · intro v e hv _
    rw [Effect.perform_hub]
    exact hv

theorem Act.rule_sound : Act.Rule known n (fun _ => True)
    fun h _ h' => h.SoundRooms → h'.SoundRooms where
  chained := ⟨fun _ => id, fun h₁ h₂ hs => h₂ (h₁ hs)⟩
  aside hr h hs := hs.of_rooms (hr.rooms h.ends)
  warned _ _ := id
  close hk _ _ h := by
    obtain ⟨m, hm⟩ := hk.numbered
    exact ⟨trivial, fun hs => RoomNews.sound_closeRoom hm hs h.ends⟩
  disconnect hk _ _ h := by
    obtain ⟨m, hm⟩ := hk.numbered
    exact ⟨trivial, fun hs => sound_disconnect hk.sessions.orderly.coherent hm hs h⟩

theorem Act.sound {act : Act} {o : Outcome} (hk : w.Kept (· ∈ known) n)
    (hl : w.hub.Lined known) (hs : w.hub.SoundRooms) (h : act.task.Does w o w' es) :
    w'.hub.SoundRooms := by
  cases ho : o.session? with
  | some s =>
    obtain ⟨profile, token, line, rfl, hlogin⟩ := Act.brings h ho
    exact sound_login hk hs hlogin
  | none =>
    refine Act.rule_sound.tells hk hl trivial h ho (fun s p x hact hpacket hs => ?_) hs
    obtain ⟨m, hm⟩ := hk.numbered
    exact Session.sound_dispatch hm hs hpacket.ends

end Acts

/-- all rooms are sound after any acts, amid failures of the store and of lines -/
theorem Course.sound {database : Database} {timeouts : Timeouts} {flood : FloodLimits}
    {clock : Int64} {steady : Nat → Prop} {start w : World} {past : List Act}
    {outcomes : List Outcome} (h : Course Act.Proper (.sparing steady) start past outcomes w)
    (hstart : start.hub = .start database timeouts flood clock) : w.hub.SoundRooms := by
  induction h using Course.induction with
  | nil =>
    rw [hstart]
    exact fun r hr => absurd hr List.not_mem_nil
  | @snoc past outcomes w w' act o es hpast hmay hgo ih =>
    obtain ⟨v, hv, hkept⟩ := hpast.ofKnown.kept_amid hstart
    obtain ⟨v', hdoes, hv'⟩ := act.oblivious_task.does hgo hv
    have hlined := (hpast.linesMatch hstart).lined
    rw [← hv] at ih hlined
    rw [← hv']
    exact Act.sound hkept hlined ih hdoes

end RhythmLobby
