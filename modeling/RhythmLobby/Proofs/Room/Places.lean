import RhythmLobby.Proofs.Room.Endings

/-!
# Who is noted to be where

Members are noted to be in their rooms, and a user is noted only while it is online, unless it was
put there when it was not.

* `Hub.Placed`              the members are noted, and all who are noted are online;
* `Hub.Fewer`               nobody comes;
* `Hub.Received`            one user comes;
* `Rooms.fewer_leave` to `Rooms.received_create`   users come and go;
* `Session.placed_dispatch`   packets keep what is noted, for one more user at most.
-/

namespace RhythmLobby
open Cache Routine World

/-! ## Members and notes -/

namespace Hub

/-- the user has a session that can be found -/
def Online (h : Hub) (user : Int32) : Prop := h.directory.ofUser user ≠ none

/-- the user is noted to be in a room -/
def Noted (h : Hub) (user : Int32) : Prop := h.memberships.get? user ≠ none

theorem noted_of_place {h : Hub} {user room : Int32}
    (hplace : h.memberships.get? user = some room) : h.Noted user := by
  rw [Noted, hplace]
  exact Option.some_ne_none room

/-- the user is a member of a room that can be found -/
def Seated (h : Hub) (user : Int32) : Prop :=
  ∃ id ref, h.openRooms.get? id = some ref ∧ user ∈ (h.room ref).ids

/-- Members are noted to be in their rooms.  Whoever is noted is online, or one of the `astray`. -/
structure Placed (astray : Int32 → Prop) (h : Hub) : Prop where
  noted : ∀ {id ref user}, h.openRooms.get? id = some ref → user ∈ (h.room ref).ids →
    h.memberships.get? user = some id
  present : ∀ {user id}, h.memberships.get? user = some id → h.Online user ∨ astray user

variable {astray : Int32 → Prop} {h h' : Hub}

theorem Placed.mono {astray' : Int32 → Prop} (hp : h.Placed astray)
    (hsub : ∀ user, astray user → h.Online user ∨ astray' user) : h.Placed astray' :=
  ⟨hp.noted, fun hu => (hp.present hu).elim .inl (hsub _)⟩

theorem Placed.of_noted (hp : h.Placed astray) {user : Int32} (hu : h.Noted user) :
    h.Online user ∨ astray user := by
  obtain ⟨id, hid⟩ := Option.ne_none_iff_exists'.mp hu
  exact hp.present hid

theorem Placed.of_seated (hp : h.Placed astray) {user : Int32} (hu : h.Seated user) :
    h.Online user ∨ astray user := by
  obtain ⟨id, ref, hr, hmem⟩ := hu
  exact hp.present (hp.noted hr hmem)

/-! ## Nobody comes -/

/-- Nobody comes and nobody is noted anew, and whoever stays in a room is still noted. -/
structure Fewer (h h' : Hub) : Prop where
  directory : h'.directory = h.directory
  memberships : ∀ {user id}, h'.memberships.get? user = some id →
    h.memberships.get? user = some id
  members : ∀ {id ref user}, h'.openRooms.get? id = some ref → user ∈ (h'.room ref).ids →
    h.openRooms.get? id = some ref ∧ user ∈ (h.room ref).ids ∧ h'.Noted user

theorem Placed.fewer (hp : h.Placed astray) (hf : h.Fewer h') :
    h'.Placed fun user => astray user ∧ h'.Noted user where
  noted {id ref user} hr hmem := by
    obtain ⟨hr, hmem, hnoted⟩ := hf.members hr hmem
    obtain ⟨id', hid'⟩ := Option.ne_none_iff_exists'.mp hnoted
    have hid := hp.noted hr hmem
    rw [hf.memberships hid'] at hid
    rw [hid', hid]
  present {user id} hu := by
    rw [Online, hf.directory]
    exact (hp.present (hf.memberships hu)).imp_right fun ha => ⟨ha, noted_of_place hu⟩

theorem Placed.sameSeats (hp : h.Placed astray) (hs : h.SameSeats h') : h'.Placed astray where
  noted hr hmem := by
    rw [hs.openRooms] at hr
    rw [hs.ids] at hmem
    rw [hs.memberships]
    exact hp.noted hr hmem
  present hu := by
    rw [hs.memberships] at hu
    rw [Online, hs.directory]
    exact hp.present hu

end Hub

/-! ## Members leave -/

namespace Hub

variable {astray : Int32 → Prop} {h h' : Hub} {user : Int32}

theorem Placed.fewer_refl (hp : h.Placed astray) : h.Fewer h where
  directory := rfl
  memberships := id
  members hr hmem := by
    exact ⟨hr, hmem, noted_of_place (hp.noted hr hmem)⟩

theorem Fewer.drop (hf : h.Fewer h') (room : Int32) : h.Fewer (Rooms.drop room h') where
  directory := hf.directory
  memberships := hf.memberships
  members {id ref v} hr hmem := by
    refine hf.members (?_ : h'.openRooms.get? id = some ref) hmem
    have hr : (h'.openRooms.erase room).get? id = some ref := hr
    rw [Table.get?_erase] at hr
    split at hr
    · cases hr
    · exact hr

/-- a user's note is taken out, and the user is in no room any more -/
theorem Placed.vacated (hp : h.Placed astray) (hd : h'.directory = h.directory)
    (hnotes : ∀ v, h'.memberships.get? v = if user = v then none else h.memberships.get? v)
    (hmembers : ∀ {id ref v}, h'.openRooms.get? id = some ref → v ∈ (h'.room ref).ids →
      h.openRooms.get? id = some ref ∧ v ∈ (h.room ref).ids ∧ v ≠ user) :
    h.Fewer h' ∧ ¬ h'.Noted user := by
  refine ⟨⟨hd, fun {v id} hv => ?_, fun {id ref v} hr hmem => ?_⟩, fun hnoted => ?_⟩
  · rw [hnotes] at hv
    split at hv
    · cases hv
    · exact hv
  · obtain ⟨hr, hmem, hne⟩ := hmembers hr hmem
    have hplace := (hnotes v).trans (if_neg (Ne.symm hne))
    exact ⟨hr, hmem, noted_of_place (hplace.trans (hp.noted hr hmem))⟩
  · rw [Noted, hnotes, if_pos rfl] at hnoted
    exact hnoted rfl

theorem get?_vacate (user v : Int32) (h : Hub) : (Rooms.vacate user h).2.memberships.get? v =
    if user = v then none else h.memberships.get? v := Table.get?_erase _ _ _

/-- the note of a user leads to no room that can be found -/
theorem Placed.vacate (hp : h.Placed astray) (hnone : ∀ room,
    h.memberships.get? user = some room → h.openRooms.get? room = none) :
    h.Fewer (Rooms.vacate user h).2 ∧ ¬ (Rooms.vacate user h).2.Noted user := by
  refine hp.vacated rfl (get?_vacate user · h) fun {id ref v} hr hmem => ⟨hr, hmem, ?_⟩
  intro heq
  subst heq
  have hr : h.openRooms.get? id = some ref := hr
  rw [hnone id (hp.noted hr hmem)] at hr
  cases hr

theorem Placed.leave {n : Nat} {room : Int32} {ref : RoomRef} (hp : h.Placed astray)
    (hn : h.Numbered n) (ho : h.AllOpen) (hplace : h.memberships.get? user = some room)
    (hr : h.openRooms.get? room = some ref) :
    let left := (Rooms.vacate user h).2.setRoom ref ((h.room ref).leave user).2
    h.Fewer left ∧ ¬ left.Noted user := by
  have hid := hn.named hr
  refine hp.vacated rfl (get?_vacate user · h) fun {id ref' v} hr' hmem => ?_
  replace hr' : h.openRooms.get? id = some ref' := hr'
  replace hmem : v ∈ ((h.setRoom ref ((h.room ref).leave user).2).room ref').ids := hmem
  rw [hn.room_setRoom (hid ▸ hr) hr'] at hmem
  refine ⟨hr', ?_⟩
  split at hmem
  · rename_i hsame
    rw [hsame, hid, hr] at hr'
    cases hr'
    rw [Room.ids_leave (ho hr), List.mem_filter] at hmem
    exact ⟨hmem.1, by simpa using hmem.2⟩
  · rename_i hother
    refine ⟨hmem, ?_⟩
    intro heq
    subst heq
    have hnoted := hp.noted hr' hmem
    rw [hplace] at hnoted
    cases hnoted
    exact hother hid.symm

theorem Placed.fewer_setRoom {n : Nat} {ref : RoomRef} {r : Room} (hp : h.Placed astray)
    (hn : h.Numbered n) (hr : h.openRooms.get? ref.id = some ref)
    (hids : ∀ v ∈ r.ids, v ∈ (h.room ref).ids) : h.Fewer (h.setRoom ref r) where
  directory := rfl
  memberships := id
  members {id ref' v} hr' hmem := by
    replace hr' : h.openRooms.get? id = some ref' := hr'
    rw [hn.room_setRoom hr hr'] at hmem
    apply hp.fewer_refl.members hr'
    split at hmem
    · rename_i hsame
      rw [hsame, hr] at hr'
      cases hr'
      exact hids v hmem
    · exact hmem

theorem get?_release (user room v : Int32) (h : Hub) :
    (Rooms.release user room h).memberships.get? v =
      if user = v ∧ h.memberships.get? v = some room then none else h.memberships.get? v := by
  unfold Rooms.release
  by_cases hroom : h.memberships.get? user = some room
  · rw [if_pos hroom]
    by_cases hu : user = v
    · subst hu
      rw [if_pos ⟨rfl, hroom⟩]
      exact (Table.get?_erase _ _ _).trans (if_pos rfl)
    · rw [if_neg (c := user = v ∧ _) fun hc => hu hc.1]
      exact (Table.get?_erase _ _ _).trans (if_neg hu)
  · rw [if_neg hroom, if_neg]
    intro hboth
    obtain ⟨rfl, hc⟩ := hboth
    exact hroom hc

/-- notes of a room that cannot be found any more are taken out -/
theorem Fewer.release (hp : h.Placed astray) (hf : h.Fewer h') {room : Int32}
    (hnone : h'.openRooms.get? room = none) (user : Int32) :
    h.Fewer (Rooms.release user room h') ∧
      (Rooms.release user room h').openRooms.get? room = none := by
  have hsame := Rooms.sameRooms_release user room h'
  refine ⟨⟨?_, fun {v id} hv => ?_, fun {id ref v} hr hmem => ?_⟩, hsame.openRooms ▸ hnone⟩
  · rw [← hf.directory]
    unfold Rooms.release
    split <;> rfl
  · rw [get?_release] at hv
    split at hv
    · cases hv
    · exact hf.memberships hv
  · rw [hsame.openRooms] at hr
    rw [hsame.room] at hmem
    obtain ⟨hr₀, hmem, hnoted⟩ := hf.members hr hmem
    refine ⟨hr₀, hmem, ?_⟩
    rw [Noted, get?_release, if_neg]
    · exact hnoted
    · intro hboth
      obtain ⟨-, hroom⟩ := hboth
      have hid := hp.noted hr₀ hmem
      rw [hf.memberships hroom] at hid
      cases hid
      rw [hnone] at hr
      cases hr

theorem Placed.fewer_releaseAll (hp : h.Placed astray) (hf : h.Fewer h') {room : Int32}
    (hnone : h'.openRooms.get? room = none) (users : List Int32) :
    h.Fewer (Rooms.releaseAll users room h') := by
  induction users generalizing h' with
  | nil => exact hf
  | cons user users ih =>
    obtain ⟨hf, hnone⟩ := hf.release hp hnone user
    exact ih hf hnone

end Hub

namespace Rooms

variable {astray : Int32 → Prop} {n : Nat} {w w' : World}

theorem fewer_leave {user : Int32} {x : Option (RoomRef × LeaveOutcome)} (hw : w.RoomsKept n)
    (hp : w.hub.Placed astray) (h : (leave user).Ends w x w') :
    w.hub.Fewer w'.hub ∧ ¬ w'.hub.Noted user := by
  rcases leave_ends h with
    ⟨-, hhub, hnone⟩ | ⟨room, ref, outcome, r', hplace, hfound, hl, -, hhub⟩
  · rw [hhub]
    exact hp.vacate hnone
  · obtain ⟨_, -, hb, ho⟩ := hw
    have hleft := hp.leave hb.numbered ho hplace hfound
    rw [hl] at hleft
    rw [hhub]
    split
    · exact ⟨hleft.1.drop room, hleft.2⟩
    · exact hleft

theorem fewer_remove {room : Int32} {caller : Option Int32} {x : Except RoomError (List Int32)}
    (hw : w.RoomsKept n) (hp : w.hub.Placed astray) (h : (remove room caller).Ends w x w') :
    w.hub.Fewer w'.hub := by
  rcases remove_ends h with ⟨e, -, hhub⟩ | ⟨ref, members, r', hfound, hclose, -, hhub⟩
  · rw [hhub]
    exact hp.fewer_refl
  · obtain ⟨_, -, hb, -⟩ := hw
    obtain ⟨-, -, rfl⟩ := Room.close_ok hclose
    have hempty := hp.fewer_setRoom (r := { w.hub.room ref with members := [], closed := true })
      hb.numbered (hb.numbered.named hfound ▸ hfound) nofun
    rw [hhub]
    exact hp.fewer_releaseAll (hempty.drop room) ((Table.get?_erase _ _ _).trans (if_pos rfl)) _

end Rooms

/-! ## Users come -/

namespace Hub

variable {astray : Int32 → Prop} {n : Nat} {h : Hub} {user room : Int32}

/-- the user is in a room now, and nobody else has come -/
structure Received (astray : Int32 → Prop) (user : Int32) (h : Hub) : Prop where
  placed : h.Placed fun v => astray v ∨ v = user
  noted : h.Noted user
  seated : h.Seated user

theorem Placed.release_note (hp : h.Placed astray) (hnew : h.memberships.get? user = none)
    (room : Int32) :
    h.Fewer (Rooms.release user room (h.note user room)) := by
  have hsame := Rooms.sameRooms_release user room (h.note user room)
  have hnotes : ∀ v, (Rooms.release user room (h.note user room)).memberships.get? v =
      h.memberships.get? v := by
    intro v
    rw [get?_release, get?_note]
    by_cases hv : user = v
    · subst hv
      rw [if_pos ⟨rfl, if_pos rfl⟩, hnew]
    · rw [if_neg fun hc => hv hc.1, if_neg hv]
  refine ⟨?_, fun hv => ?_, fun {id ref v} hr hmem => ?_⟩
  · unfold Rooms.release
    split <;> rfl
  · rwa [hnotes] at hv
  · rw [hsame.openRooms] at hr
    rw [hsame.room] at hmem
    rw [Noted, hnotes]
    exact hp.fewer_refl.members hr hmem

theorem Placed.join {ref : RoomRef} {r : Room} (hp : h.Placed astray) (hn : h.Numbered n)
    (hr : h.openRooms.get? room = some ref) (hnew : h.memberships.get? user = none)
    (hids : r.ids = (h.room ref).ids ++ [user]) :
    ((h.note user room).setRoom ref r).Received astray user := by
  have hid := hn.named hr
  have hstate : ∀ {id ref'}, h.openRooms.get? id = some ref' →
      ((h.note user room).setRoom ref r).room ref' = if id = ref.id then r else h.room ref' :=
    fun hr' => hn.room_setRoom (hid ▸ hr) hr'
  have hnotes : ∀ v, ((h.note user room).setRoom ref r).memberships.get? v =
      if user = v then some room else h.memberships.get? v := fun v => get?_note v
  refine ⟨⟨fun {id ref' v} hr' hmem => ?_, fun {v id} hv => ?_⟩, ?_, room, ref, hr, ?_⟩
  · replace hr' : h.openRooms.get? id = some ref' := hr'
    rw [hstate hr'] at hmem
    rw [hnotes]
    split at hmem
    · rename_i hsame
      rw [hsame, hid, hr] at hr'
      cases hr'
      rw [hsame, hid]
      rw [hids, List.mem_append, List.mem_singleton] at hmem
      rcases hmem with hmem | rfl
      · rw [hp.noted hr hmem, ite_self]
      · exact if_pos rfl
    · have hnoted := hp.noted hr' hmem
      rw [if_neg, hnoted]
      intro heq
      subst heq
      rw [hnew] at hnoted
      cases hnoted
  · rw [hnotes] at hv
    split at hv
    · exact .inr (.inr (Eq.symm ‹_›))
    · exact (hp.present hv).imp_right .inl
  · exact noted_of_place ((hnotes user).trans (if_pos rfl))
  · rw [hstate hr, if_pos hid.symm, hids]
    exact List.mem_append_right _ (List.mem_singleton_self _)

theorem Placed.enter {r : Room} (hp : h.Placed astray) (hn : h.Numbered n)
    (hnew : h.memberships.get? user = none) (hids : r.ids = [user]) :
    (Rooms.enter r (h.note user r.id)).2.Received astray user := by
  have hnotes : ∀ v, (Rooms.enter r (h.note user r.id)).2.memberships.get? v =
      if user = v then some r.id else h.memberships.get? v := fun v => get?_note v
  refine ⟨⟨fun {id ref' v} hr' hmem => ?_, fun {v id} hv => ?_⟩, ?_, r.id, _,
    (get?_openRooms_enter _ _ _).trans (if_pos rfl), ?_⟩
  · rw [hnotes]
    rcases get?_openRooms_enter_cases hr' with ⟨rfl, rfl⟩ | hr'
    · rw [room_enter_new, hids, List.mem_singleton] at hmem
      exact if_pos hmem.symm
    · replace hr' : h.openRooms.get? id = some ref' := hr'
      have hmade : ref'.key < (h.note user r.id).rooms.length := hn.made hr'
      rw [room_enter_old hmade] at hmem
      have hnoted := hp.noted hr' hmem
      rw [if_neg, hnoted]
      intro heq
      subst heq
      rw [hnew] at hnoted
      cases hnoted
  · rw [hnotes] at hv
    split at hv
    · exact .inr (.inr (Eq.symm ‹_›))
    · exact (hp.present hv).imp_right .inl
  · exact noted_of_place ((hnotes user).trans (if_pos rfl))
  · rw [room_enter_new, hids]
    exact List.mem_singleton_self _

end Hub

namespace Rooms

variable {astray : Int32 → Prop} {n : Nat} {w w' : World} {x : Except RoomError RoomRef}

theorem received_join {room : Int32} {profile : PlayerProfile} {guess : Option String}
    (hw : w.RoomsKept n) (hp : w.hub.Placed astray) (h : (join room profile guess).Ends w x w') :
    Room.Answered (w'.hub.Placed astray) (fun _ => w'.hub.Received astray profile.userId) x := by
  rcases join_ends h with
    ⟨e, rfl, hhub | ⟨hnew, hhub⟩⟩ | ⟨ref, record, r', hfound, hnew, hjoin, rfl, hhub⟩
  · show w'.hub.Placed astray
    rw [hhub]
    exact hp
  · show w'.hub.Placed astray
    rw [hhub]
    exact (hp.fewer (hp.release_note hnew room)).mono fun v hv => .inr hv.1
  · show w'.hub.Received astray profile.userId
    rw [hhub]
    obtain ⟨_, -, hb, -⟩ := hw
    obtain ⟨-, -, -, -, -, rfl⟩ := Room.join_inv hjoin
    apply hp.join hb.numbered hfound hnew
    show (_ ++ [_]).map _ = _
    rw [List.map_append]
    rfl

theorem received_create {request : RoomRequest} {host : PlayerProfile} (hw : w.RoomsKept n)
    (hp : w.hub.Placed astray) (h : (create request host).Ends w x w') :
    Room.Answered (w'.hub.Placed astray) (fun _ => w'.hub.Received astray host.userId) x := by
  have hp' : (takeId w.hub).2.Placed astray := hp.sameSeats ⟨rfl, rfl, rfl, fun _ => rfl⟩
  rcases create_ends h with ⟨e, rfl, hhub | hhub⟩ | ⟨r, hids, -, hnew, rfl, hhub⟩
  · show w'.hub.Placed astray
    rw [hhub]
    exact hp
  · show w'.hub.Placed astray
    rw [hhub]
    exact hp'
  · show w'.hub.Received astray host.userId
    rw [hhub]
    obtain ⟨_, -, hb, -⟩ := hw
    exact hp'.enter hb.takeId.1.numbered hnew hids

end Rooms

/-! ## Packets -/

theorem RoomNews.leaveCurrent_ends {w w' : World} {user : Int32} {x : Bool}
    (h : (leaveCurrent user).Ends w x w') :
    ∃ left w₁, (Rooms.leave user).Ends w left w₁ ∧ w'.hub = w₁.hub := by
  obtain ⟨left, w₁, h₁, h⟩ := ends_bind.mp h
  refine ⟨left, w₁, h₁, Calm.ends ?_ h⟩
  rcases left with _ | ⟨ref, outcome⟩
  · exact calm_done _
  cases outcome with
  | notMember => exact calm_done _
  | emptied => exact calm_done _
  | left => exact (calm_read _).bind fun _ => (calm_notify _ _).bind fun _ => calm_done _
  | hostPassed host =>
    refine (calm_read _).bind fun _ => (calm_notify _ _).bind fun _ => ?_
    exact (calm_sendUpdate ref).bind fun _ => calm_done _

theorem RoomNews.fewer_leaveCurrent {astray : Int32 → Prop} {n : Nat} {w w' : World} {user : Int32}
    {x : Bool} (hw : w.RoomsKept n) (hp : w.hub.Placed astray)
    (h : (leaveCurrent user).Ends w x w') : w.hub.Fewer w'.hub ∧ ¬ w'.hub.Noted user := by
  obtain ⟨left, w₁, h₁, hsame⟩ := leaveCurrent_ends h
  rw [hsame]
  exact Rooms.fewer_leave hw hp h₁

theorem RoomNews.fewer_closeRoom {astray : Int32 → Prop} {n : Nat} {w w' : World} {ref : RoomRef}
    {x : Unit} (hw : w.RoomsKept n) (hp : w.hub.Placed astray)
    (h : (closeRoom ref).Ends w x w') : w.hub.Fewer w'.hub := by
  obtain ⟨closed, w₁, h₁, h⟩ := ends_bind.mp h
  have hclosed := Rooms.fewer_remove hw hp h₁
  suffices w'.hub = w₁.hub by rwa [this]
  cases closed with
  | error e => exact (calm_done _).ends h
  | ok members => exact ((calm_notify _ _).bind fun _ => calm_done _).ends h

namespace Session

variable {astray : Int32 → Prop} {n : Nat} {w w' : World} {s : Session}
  {x : Except Refusal Unit}

/-- a packet that asks for a place is refused, or the user gets one -/
theorem received_handle {p : ClientPacket} (he : p.Enters) (hw : w.RoomsKept n)
    (hp : w.hub.Placed astray) (h : (s.handle p).Ends w x w') :
    (∃ e, x = .error e ∧ w'.hub.Placed astray) ∨
      (x = .ok () ∧ w'.hub.Received astray s.id) := by
  cases p with
  | roomCreate name password maxPlayers map =>
    obtain ⟨muted, w₁, h₁, hrest⟩ := ends_bind.mp h
    obtain ⟨-, rfl⟩ := ends_read.mp h₁
    split at hrest
    · obtain ⟨rfl, rfl⟩ := ends_done.mp hrest
      exact .inl ⟨_, rfl, hp⟩
    obtain ⟨made, w₂, h₂, h⟩ := ends_bind.mp hrest
    have hmade := Rooms.received_create hw hp h₂
    cases made with
    | error e =>
      obtain ⟨rfl, rfl⟩ := ends_done.mp h
      exact .inl ⟨_, rfl, hmade⟩
    | ok ref =>
      obtain ⟨_, w₃, h₃, h⟩ := ends_bind.mp h
      obtain ⟨_, w₄, h₄, h⟩ := ends_bind.mp h
      obtain ⟨rfl, rfl⟩ := ends_done.mp h
      refine .inr ⟨rfl, ?_⟩
      rw [(calm_emit _).ends h₄, (calm_read _).ends h₃]
      exact hmade
  | roomJoin room password =>
    obtain ⟨joined, w₁, h₁, h⟩ := ends_bind.mp h
    have hjoined := Rooms.received_join hw hp h₁
    cases joined with
    | error e =>
      obtain ⟨rfl, rfl⟩ := ends_done.mp h
      exact .inl ⟨_, rfl, hjoined⟩
    | ok ref =>
      obtain ⟨_, w₂, h₂, h⟩ := ends_bind.mp h
      obtain ⟨_, w₃, h₃, h⟩ := ends_bind.mp h
      obtain ⟨_, w₄, h₄, h⟩ := ends_bind.mp h
      obtain ⟨_, w₅, h₅, h⟩ := ends_bind.mp h
      obtain ⟨rfl, rfl⟩ := ends_done.mp h
      refine .inr ⟨rfl, ?_⟩
      rw [(RoomNews.calm_notify _ _).ends h₅, (calm_read _).ends h₄, (calm_emit _).ends h₃,
        (calm_read _).ends h₂]
      exact hjoined
  | _ => exact he.elim

theorem fewer_handle {p : ClientPacket} (hc : p.Clears) (hw : w.RoomsKept n)
    (hp : w.hub.Placed astray) (h : (s.handle p).Ends w x w') : w.hub.Fewer w'.hub := by
  cases p with
  | roomLeave =>
    obtain ⟨left, w₁, h₁, h⟩ := ends_bind.mp h
    have hleft := (RoomNews.fewer_leaveCurrent hw hp h₁).1
    split at h
    · obtain ⟨-, rfl⟩ := ends_done.mp h
      exact hleft
    · obtain ⟨-, rfl⟩ := ends_done.mp h
      exact hleft
  | roomClose =>
    obtain ⟨found, w₁, h₁, h⟩ := ends_bind.mp h
    obtain ⟨hw₁, -⟩ := Rooms.takes_roomOf s.id hw h₁
    have hsame : w₁.hub = w.hub := by
      refine Calm.ends ((calm_read _).bind fun place => ?_) h₁
      cases place with
      | none => exact calm_done _
      | some room => exact calm_read _
    rw [← hsame] at hp ⊢
    cases found with
    | none =>
      obtain ⟨-, rfl⟩ := ends_done.mp h
      exact hp.fewer_refl
    | some ref =>
      obtain ⟨closed, w₂, h₂, h⟩ := ends_bind.mp h
      have hclosed := Rooms.fewer_remove hw₁ hp h₂
      suffices w'.hub = w₂.hub by rwa [this]
      cases closed with
      | error e => exact (calm_done _).ends h
      | ok members => exact ((RoomNews.calm_notify _ _).bind fun _ => calm_done _).ends h
  | _ => exact hc.elim

theorem handle_of_dispatch {p : ClientPacket} (h : (s.dispatch p).Ends w x w') :
    ∃ w₁, (s.handle p).Ends w x w₁ ∧ w'.hub = w₁.hub := by
  obtain ⟨y, w₁, h₁, h⟩ := ends_bind.mp h
  cases y with
  | error e =>
    obtain ⟨_, w₂, h₂, h⟩ := ends_bind.mp h
    obtain ⟨_, w₃, h₃, h⟩ := ends_bind.mp h
    obtain ⟨rfl, rfl⟩ := ends_done.mp h
    exact ⟨w₁, h₁, by rw [(calm_emit _).ends h₃, (calm_emit _).ends h₂]⟩
  | ok _ =>
    obtain ⟨_, w₂, h₂, h⟩ := ends_bind.mp h
    obtain ⟨rfl, rfl⟩ := ends_done.mp h
    exact ⟨w₁, h₁, (calm_emit _).ends h₂⟩

/-- A packet that asks for a place and is not refused puts its user into a room.  All others leave
everybody noted. -/
theorem placed_dispatch {p : ClientPacket} (hw : w.RoomsKept n) (hp : w.hub.Placed astray)
    (h : (s.dispatch p).Ends w x w') :
    (p.Enters ∧ x = .ok () ∧ w'.hub.Received astray s.id) ∨
      (¬ (p.Enters ∧ x = .ok ()) ∧ w'.hub.Placed astray) := by
  obtain ⟨w₁, h, hsame⟩ := handle_of_dispatch h
  rw [hsame]
  by_cases he : p.Enters
  · rcases received_handle he hw hp h with ⟨e, rfl, hplaced⟩ | ⟨rfl, hreceived⟩
    · exact .inr ⟨fun hc => absurd hc.2 nofun, hplaced⟩
    · exact .inl ⟨he, rfl, hreceived⟩
  · refine .inr ⟨fun hc => he hc.1, ?_⟩
    by_cases hc : p.Clears
    · exact (hp.fewer (fewer_handle hc hw hp h)).mono fun _ hv => .inr hv.1
    · exact hp.sameSeats ((s.steady_handle he hc).ends h)

end Session

end RhythmLobby
