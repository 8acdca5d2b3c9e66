import RhythmLobby.Proofs.Room.Following
import RhythmLobby.Proofs.Room.Reach
import RhythmLobby.Proofs.Room.Soundness

/-!
# Who may do what

A packet concerns its own session, and the room that its user is in or comes to be in.

* `Hub.Grants`             what a packet of a user may make of rooms and of notes on users;
* `Session.grants_handle`  what packets make of them;
* `Hub.Allows`             what a packet may make of memory, and what it has to if it is accepted;
* `packets_keep_to_their_rights`   no packet does more, and none that is accepted does less.
-/

namespace RhythmLobby
open Routine World

/-! ## Rooms and notes -/

namespace Hub

/-- What a packet of a user, to which `x` is the answer, may make of rooms and of notes on users.
A room that the user does not host can still be found afterwards, unless its id, which is the next
one to be given away, has gone to a room that the user has opened. -/
structure Grants (user : Int32) (p : ClientPacket) (x : Except Refusal Unit) (h h' : Hub) :
    Prop where
  rooms : ∀ ref, (h.room ref).Grants user p x (h'.room ref)
  memberships : ∀ v, v ≠ user → h'.memberships.get? v = h.memberships.get? v ∨
    (p = .roomClose ∧ x = .ok () ∧ ∃ id ref, h.openRooms.get? id = some ref ∧
      (h.room ref).settings.hostId = user ∧ v ∈ (h.room ref).ids)
  listed : ∀ {id ref}, h.openRooms.get? id = some ref → (h.room ref).settings.hostId ≠ user →
    h'.openRooms.get? id = some ref ∨ (p.asksForRoom ∧ x = .ok () ∧ id = h.nextRoom)

variable {user : Int32} {p : ClientPacket} {x : Except Refusal Unit} {h h' : Hub}
  {ref : RoomRef} {r' : Room}

/-- the next id is free as long as there are ids that have never been given away -/
theorem Numbered.free {n : Nat} (hn : h.Numbered n) (hfew : n < UInt32.size) :
    h.openRooms.get? h.nextRoom = none := by
  cases hr : h.openRooms.get? h.nextRoom with
  | none => rfl
  | some ref =>
    obtain ⟨k, hk, hid⟩ := hn.taken hr
    rw [hn.next] at hid
    have hmany := lt_of_ofNat_eq hk hid
    omega

theorem grants_same (hrooms : h'.rooms = h.rooms) (hopen : h'.openRooms = h.openRooms)
    (hnotes : ∀ v, v ≠ user → h'.memberships.get? v = h.memberships.get? v) :
    h.Grants user p x h' where
  rooms ref := by
    rw [room, room, hrooms]
    exact Room.grants_refl user p x _
  memberships v hv := .inl (hnotes v hv)
  listed hr _ := .inl (hopen ▸ hr)

theorem grants_rooms (hmade : ref.key < h.rooms.length)
    (hrooms : h'.rooms = h.rooms.set ref.key r') (hr : (h.room ref).Grants user p x r')
    (ref' : RoomRef) : (h.room ref').Grants user p x (h'.room ref') := by
  by_cases hk : ref'.key = ref.key
  · have hold : h.room ref' = h.room ref := by
      rw [room, room, hk, List.getElem?_eq_getElem hmade]
      rfl
    have hnew : h'.room ref' = r' := by
      rw [room, hk, hrooms, List.getElem?_set_self hmade]
      rfl
    rw [hold, hnew]
    exact hr
  · rw [room, room, hrooms, List.getElem?_set_ne (Ne.symm hk)]
    exact Room.grants_refl user p x _

theorem grants_setRoom (hmade : ref.key < h.rooms.length) (hr : (h.room ref).Grants user p x r') :
    h.Grants user p x (h.setRoom ref r') where
  rooms := grants_rooms hmade rfl hr
  memberships _ _ := .inl rfl
  listed hr _ := .inl hr

theorem grants_enter (hids : r'.ids = [user]) (ref : RoomRef) :
    (h.room ref).Grants user p x ((Rooms.enter r' h).2.room ref) := by
  rcases Nat.lt_trichotomy ref.key h.rooms.length with hlt | heq | hgt
  · rw [room_enter_old hlt]
    exact Room.grants_refl user p x _
  · have hold : h.room ref = noRoom ref.id := by
      rw [room, List.getElem?_eq_none (Nat.le_of_eq heq.symm)]
      rfl
    have hnew : (Rooms.enter r' h).2.room ref = r' := by
      show ((h.rooms ++ [r'])[ref.key]?).getD _ = r'
      rw [heq, List.getElem?_concat_length]
      rfl
    rw [hold, hnew]
    apply Room.grants_of_comes List.not_mem_nil (hids ▸ List.mem_singleton_self _)
    rw [hids, List.filter_cons_of_neg (by simp)]
    rfl
  · have hsame : (Rooms.enter r' h).2.room ref = h.room ref := by
      show ((h.rooms ++ [r'])[ref.key]?).getD _ = _
      have hlong : (h.rooms ++ [r']).length ≤ ref.key := by
        rw [List.length_append]
        exact hgt
      rw [room, List.getElem?_eq_none (Nat.le_of_lt hgt), List.getElem?_eq_none hlong]
    rw [hsame]
    exact Room.grants_refl user p x _

theorem get?_releaseAll (users : List Int32) (room v : Int32) (h : Hub) :
    (Rooms.releaseAll users room h).memberships.get? v =
      if v ∈ users ∧ h.memberships.get? v = some room then none else h.memberships.get? v := by
  induction users generalizing h with
  | nil => rw [if_neg fun hc => List.not_mem_nil hc.1]; rfl
  | cons user users ih =>
    show (Rooms.releaseAll users room (Rooms.release user room h)).memberships.get? v = _
    rw [ih, get?_release]
    by_cases hroom : h.memberships.get? v = some room
    · by_cases hv : user = v
      · subst hv
        simp [hroom]
      · simp [hroom, hv, Ne.symm hv]
    · simp [hroom]

end Hub

/-! ## Members come and go -/

namespace Rooms

variable {w w' : World} {user : Int32}

theorem grants_leave {left : Option (RoomRef × LeaveOutcome)} (ht : w.hub.WellFormed)
    (hs : w.hub.SoundRooms) (h : (leave user).Ends w left w') (x : Except Refusal Unit) :
    w.hub.Grants user .roomLeave x w'.hub := by
  obtain ⟨n, hn⟩ := ht.numbered
  rcases leave_ends h with ⟨-, hhub, -⟩ | ⟨room, ref, outcome, r', -, hr, hl, -, hhub⟩
  · rw [hhub]
    exact Hub.grants_same rfl rfl fun v hv => (Hub.get?_vacate user v w.hub).trans
      (if_neg (Ne.symm hv))
  have hsound := hs.room (hn.made hr)
  have hgrants := Room.grants_leave hsound user x
  rw [hl] at hgrants
  have hrooms : w'.hub.rooms = w.hub.rooms.set ref.key r' := by
    rw [hhub]
    split <;> rfl
  have hnotes : w'.hub.memberships = (vacate user w.hub).2.memberships := by
    rw [hhub]
    split <;> rfl
  refine ⟨Hub.grants_rooms (hn.made hr) hrooms hgrants, fun v hv => .inl ?_,
    fun {id ref'} hr' hguest => .inl ?_⟩
  · rw [hnotes]
    exact (Hub.get?_vacate user v w.hub).trans (if_neg (Ne.symm hv))
  rw [hhub]
  split
  · rename_i hemptied
    refine (Table.get?_erase _ _ _).trans ((if_neg ?_).trans hr')
    -- only the host is ever the last one to leave
    intro heq
    subst heq
    rw [hr] at hr'
    cases hr'
    rw [hemptied] at hl
    rcases Room.leave_of_guest hguest with hl' | ⟨hids, -⟩ | hl'
    · rw [hl] at hl'
      cases hl'
    · exact Room.without_of_guest hsound (ht.allOpen hr) hguest hids
    · rw [hl] at hl'
      cases hl'
  · exact hr'

theorem grants_remove {id : Int32} {y : Except RoomError (List Int32)} (ht : w.hub.WellFormed)
    (hs : w.hub.SoundRooms) (h : (remove id (some user)).Ends w y w') :
    w.hub.Grants user .roomClose (Session.answer y) w'.hub := by
  obtain ⟨n, hn⟩ := ht.numbered
  rcases remove_ends h with ⟨e, -, hhub⟩ | ⟨ref, members, r', hr, hclose, rfl, hhub⟩
  · rw [hhub]
    exact Hub.grants_same rfl rfl fun _ _ => rfl
  obtain ⟨-, rfl, -⟩ := Room.close_ok hclose
  have hhost := (Room.close_host hclose).2
  have hgrants := Room.grants_close (hs.room (hn.made hr)) hclose
  have hsame := (sameRooms_releaseAll (w.hub.room ref).ids id
    (drop id (w.hub.setRoom ref r'))).1
  refine ⟨Hub.grants_rooms (hn.made hr) (hhub ▸ hsame.rooms) hgrants, fun v hv => ?_,
    fun {id' ref'} hr' hguest => .inl ?_⟩
  · rw [hhub, Hub.get?_releaseAll]
    split
    · rename_i hmem
      exact .inr ⟨rfl, rfl, id, ref, hr, hhost, hmem.1⟩
    · exact .inl rfl
  · rw [hhub, hsame.openRooms]
    refine (Table.get?_erase _ _ _).trans ((if_neg ?_).trans hr')
    intro heq
    subst heq
    rw [hr] at hr'
    cases hr'
    exact hguest hhost

theorem grants_join {id : Int32} {profile : PlayerProfile} {guess : Option String}
    {y : Except RoomError RoomRef} (ht : w.hub.WellFormed) (h : (join id profile guess).Ends w y w')
    (p : ClientPacket) (x : Except Refusal Unit) :
    w.hub.Grants profile.userId p x w'.hub := by
  obtain ⟨n, hn⟩ := ht.numbered
  have hnote : ∀ v, v ≠ profile.userId →
      (w.hub.note profile.userId id).memberships.get? v = w.hub.memberships.get? v :=
    fun v hv => (Hub.get?_note v).trans (if_neg (Ne.symm hv))
  rcases join_ends h with
    ⟨e, -, hhub | ⟨-, hhub⟩⟩ | ⟨ref, record, r', hr, -, hjoin, -, hhub⟩
  · rw [hhub]
    exact Hub.grants_same rfl rfl fun _ _ => rfl
  · have hsame := sameRooms_release profile.userId id (w.hub.note profile.userId id)
    rw [hhub]
    refine Hub.grants_same hsame.rooms hsame.openRooms fun v hv => ?_
    rw [Hub.get?_release, if_neg fun hc => hv hc.1.symm, hnote v hv]
  · rw [hhub]
    exact ⟨Hub.grants_rooms (hn.made hr) rfl (Room.grants_join hjoin),
      fun v hv => .inl (hnote v hv), fun hr' _ => .inl hr'⟩

theorem grants_create {request : RoomRequest} {host : PlayerProfile}
    {y : Except RoomError RoomRef} (h : (create request host).Ends w y w')
    {p : ClientPacket} (hp : p.asksForRoom) :
    w.hub.Grants host.userId p (Session.answer y) w'.hub := by
  rcases create_ends h with ⟨e, -, hhub | hhub⟩ | ⟨r, hids, hid, -, rfl, hhub⟩
  · rw [hhub]
    exact Hub.grants_same rfl rfl fun _ _ => rfl
  · rw [hhub]
    exact Hub.grants_same rfl rfl fun _ _ => rfl
  rw [hhub]
  refine ⟨fun ref => ?_, fun v hv => .inl ?_, fun {id ref} hr _ => ?_⟩
  · exact Hub.grants_enter hids ref
  · exact (Hub.get?_note v).trans (if_neg (Ne.symm hv))
  · by_cases hlost : r.id = id
    · exact .inr ⟨hp, rfl, hlost.symm.trans hid⟩
    · exact .inl ((Hub.get?_openRooms_enter _ r id).trans ((if_neg hlost).trans hr))

end Rooms

/-! ## Packets -/

namespace Session

variable {w w' : World} {s : Session} {p : ClientPacket} {x : Except Refusal Unit}

theorem grants_handle (ht : w.hub.WellFormed) (hs : w.hub.SoundRooms)
    (h : (s.handle p).Ends w x w') :
    w.hub.Grants s.id p x w'.hub := by
  obtain ⟨n, hn⟩ := ht.numbered
  generalize hdeed : w'.hub = h'
  cases hdeed ▸ deed_handle hn h with
  | own => exact Hub.grants_same rfl rfl fun _ _ => rfl
  | refused => exact Hub.grants_same rfl rfl fun _ _ => rfl
  | changed hplace hchanged =>
    obtain ⟨room, -, hr⟩ := hplace
    exact Hub.grants_setRoom (hn.made hr) (hchanged.grants (hs.room (hn.made hr)))
  | created hp h₁ => exact Rooms.grants_create h₁ hp
  | joined h₁ => exact Rooms.grants_join ht h₁ _ _
  | left h₁ => exact Rooms.grants_leave ht hs h₁ _
  | closed _ h₁ => exact Rooms.grants_remove ht hs h₁

theorem closes_handle (ht : w.hub.WellFormed) (h : (s.handle .roomClose).Ends w (.ok ()) w') :
    ∃ id ref, w.hub.openRooms.get? id = some ref ∧ (w.hub.room ref).settings.hostId = s.id ∧
      w'.hub.room ref = { w.hub.room ref with members := [], closed := true } ∧
      w'.hub.openRooms.get? id = none ∧
      ∀ v ∈ (w.hub.room ref).ids, w'.hub.memberships.get? v = none := by
  obtain ⟨n, hn⟩ := ht.numbered
  rcases closeRoom_ends h with ⟨e, hx, -⟩ | ⟨ref, y, w₁, ⟨id, -, hr⟩, h₁, hx, hhub⟩
  · cases hx
  rw [hn.named hr] at h₁
  rcases Rooms.remove_ends h₁ with ⟨e, rfl, -⟩ | ⟨ref', members, r', hr', hclose, -, hhub₁⟩
  · cases hx
  rw [hr] at hr'
  cases hr'
  have hhost := (Room.close_host hclose).2
  obtain ⟨-, rfl, rfl⟩ := Room.close_ok hclose
  have hsame := (Rooms.sameRooms_releaseAll (w.hub.room ref).ids id (Rooms.drop id
    (w.hub.setRoom ref { w.hub.room ref with members := [], closed := true }))).1
  refine ⟨id, ref, hr, hhost, ?_, ?_, fun v hv => ?_⟩
  · rw [hhub, hhub₁, hsame.room]
    exact Hub.room_setRoom (hn.made hr) _
  · rw [hhub, hhub₁, hsame.openRooms]
    exact (Table.get?_erase _ _ _).trans (if_pos rfl)
  · rw [hhub, hhub₁, Hub.get?_releaseAll]
    exact if_pos ⟨hv, ht.noted hr hv⟩

/-- the user joins the room, and nothing else changes in it -/
theorem joins_handle {id : Int32} {guess : Option String} (ht : w.hub.WellFormed)
    (h : (s.handle (.roomJoin id guess)).Ends w (.ok ()) w') :
    ∃ ref, w.hub.openRooms.get? id = some ref ∧ s.id ∉ (w.hub.room ref).ids ∧
      w'.hub.room ref = { w.hub.room ref with
        members := (w.hub.room ref).members ++ [Member.newcomer s.profile.toPlayer] } := by
  obtain ⟨n, hn⟩ := ht.numbered
  obtain ⟨y, w₁, h₁, hx, hhub⟩ := joinRoom_ends h
  rcases Rooms.join_ends h₁ with ⟨e, rfl, -⟩ | ⟨ref, record, r', hr, -, hjoin, -, hhub₁⟩
  · cases hx
  obtain ⟨-, hout, -, -, -, rfl⟩ := Room.join_inv hjoin
  refine ⟨ref, hr, hout, ?_⟩
  rw [hhub, hhub₁]
  exact Hub.room_setRoom (hn.made hr) _

theorem wins_handle {v : Int32} (ht : w.hub.WellFormed)
    (h : (s.handle (.roomFinish (some v))).Ends w (.ok ()) w') :
    ∃ id ref m m', w.hub.openRooms.get? id = some ref ∧
      (w.hub.room ref).settings.hostId = s.id ∧ (w.hub.room ref).member? v = some m ∧
      (w'.hub.room ref).member? v = some m' ∧
      m'.wins.toNat = min (m.wins.toNat + 1) (UInt32.size - 1) := by
  obtain ⟨n, hn⟩ := ht.numbered
  rcases changes_handle (p := .roomFinish (some v)) trivial not_false not_false hn h with
    ⟨e, hx, -⟩ | ⟨ref, r', ⟨id, -, hr⟩, -, hchanged, hhub⟩
  · cases hx
  obtain ⟨hhost, m, m', hm, hm', hwins⟩ := hchanged.wins
  refine ⟨id, ref, m, m', hr, hhost, hm, ?_, hwins⟩
  rw [hhub, Hub.room_setRoom (hn.made hr)]
  exact hm'

end Session

/-! ## Memory -/

/-- What a packet of a session, to which `x` is the answer, may make of memory.  Nobody comes online
or goes, and no other session changes.  If the host closes its room, all members go, if a user joins
a room, it is appended to the members with a fresh record, and if a winner is named, it wins once
more. -/
structure Hub.Allows (s : Session) (p : ClientPacket) (x : Except Refusal Unit) (h h' : Hub) :
    Prop where
  directory : h'.directory = h.directory
  sessions : ∀ k, k ≠ s.key → h'.sessions[k]? = h.sessions[k]?
  others : ∀ s', h.Finds s' → s' ≠ s → h'.stateOf s' = h.stateOf s'
  grants : h.Grants s.id p x h'
  closes : p = .roomClose → x = .ok () → ∃ id ref, h.openRooms.get? id = some ref ∧
    (h.room ref).settings.hostId = s.id ∧
    h'.room ref = { h.room ref with members := [], closed := true } ∧
    h'.openRooms.get? id = none ∧ ∀ v ∈ (h.room ref).ids, h'.memberships.get? v = none
  joins : ∀ id guess, p = .roomJoin id guess → x = .ok () → ∃ ref,
    h.openRooms.get? id = some ref ∧ s.id ∉ (h.room ref).ids ∧ h'.room ref =
      { h.room ref with members := (h.room ref).members ++ [Member.newcomer s.profile.toPlayer] }
  wins : ∀ v, p = .roomFinish (some v) → x = .ok () → ∃ id ref m m',
    h.openRooms.get? id = some ref ∧ (h.room ref).settings.hostId = s.id ∧
    (h.room ref).member? v = some m ∧ (h'.room ref).member? v = some m' ∧
    m'.wins.toNat = min (m.wins.toNat + 1) (UInt32.size - 1)

namespace Session

variable {w w' : World} {s : Session} {p : ClientPacket} {x : Except Refusal Unit}

/-- a packet changes the state of its own session at most -/
theorem sessions_handle (h : (s.handle p).Ends w x w') :
    w'.hub.directory = w.hub.directory ∧
      ∀ k, k ≠ s.key → w'.hub.sessions[k]? = w.hub.sessions[k]? := by
  by_cases hp : p.OfRoom
  · have hsame := (s.roomTask_handle (n := 0) hp).only.sameSessions h
    refine ⟨hsame.1, fun k _ => ?_⟩
    rw [hsame.2]
  · obtain ⟨states, hhub, hothers⟩ := (s.own_handle hp).ends h
    rw [hhub]
    exact ⟨rfl, hothers⟩

theorem allows_dispatch (ht : w.hub.WellFormed) (hs : w.hub.SoundRooms) (ho : w.hub.Orderly)
    (hr : w.hub.Rightful s) (h : (s.dispatch p).Ends w x w') : w.hub.Allows s p x w'.hub := by
  obtain ⟨w₁, h₁, hsame⟩ := handle_of_dispatch h
  rw [hsame]
  obtain ⟨hdirectory, hsessions⟩ := sessions_handle h₁
  refine ⟨hdirectory, hsessions, fun s' hfound hne => ?_, grants_handle ht hs h₁, ?_, ?_, ?_⟩
  · have hkey : s'.key ≠ s.key := fun hk => hne (hr.alone hfound hk)
    rw [Hub.stateOf, Hub.stateOf, hsessions _ hkey, List.getElem?_eq_getElem (ho.made hfound)]
    rfl
  · intro heq hequal
    subst heq
    subst hequal
    exact closes_handle ht h₁
  · intro id guess heq hequal
    subst heq
    subst hequal
    exact joins_handle ht h₁
  · intro v heq hequal
    subst heq
    subst hequal
    exact wins_handle ht h₁

end Session

/-! ## All courses -/

section Course

variable {database : Database} {timeouts : Timeouts} {flood : FloodLimits} {clock : Int64}
  {steady : Nat → Prop} {start w : World} {past : List Act} {outcomes : List Outcome}

/-- Whatever has been done with a server that had just started, amid any failures of the store and
of lines, a packet of a session that has been online changes memory as `Hub.Allows` says.  As long
as fewer than `2 ^ 32` ids of rooms have been given away, the rooms that others host can still be
found.  As long as difficulties are numbers, the packet is answered. -/
theorem packets_keep_to_their_rights (h : Course Act.Proper (.sparing steady) start past outcomes w)
    (hstart : start.hub = .start database timeouts flood clock) {s : Session}
    (hs : s ∈ known outcomes) (p : ClientPacket) :
    (∀ x w' es, (s.dispatch p).DoesAmid (.sparing steady) w x w' es → w.hub.Allows s p x w'.hub ∧
      (idsGiven past outcomes < UInt32.size →
        ∀ id ref, w.hub.openRooms.get? id = some ref → (w.hub.room ref).settings.hostId ≠ s.id →
          w'.hub.openRooms.get? id = some ref)) ∧
    ((∀ act ∈ past, act.Rated) → p.Rated →
      ∃ x w' es, (s.dispatch p).DoesAmid (.sparing steady) w x w' es) := by
  obtain ⟨v, hv, -, hcourse⟩ := h.ofKnown.afresh hstart
  have hkept := hcourse.kept
  have hlined := (h.linesMatch hstart).lined
  have ht := hkept.wellFormed (hv ▸ hlined) (hcourse.placed rfl)
  have hsound := h.sound hstart
  refine ⟨fun x w' es hd => ?_, fun hpast hp => ?_⟩
  · obtain ⟨v', hdoes, hv'⟩ := (s.oblivious_dispatch p).does hd hv
    have hallows := Session.allows_dispatch ht (hv ▸ hsound) hkept.sessions.orderly
      (hkept.sessions.rightful s hs) hdoes.ends
    rw [hv, hv'] at hallows
    refine ⟨hallows, fun hcount id ref hr hguest => ?_⟩
    rcases hallows.grants.listed hr hguest with hlisted | ⟨-, -, hlost⟩
    · exact hlisted
    · obtain ⟨n, hn, hb, -⟩ := hkept.rooms
      have hfree := hb.numbered.free (Nat.lt_of_le_of_lt hn hcount)
      rw [hv, ← hlost, hr] at hfree
      cases hfree
  · have hrated : v.hub.Rated := hcourse.rated hpast
    obtain ⟨x, w', hends, -⟩ := s.halts_dispatch hp (hv ▸ hrated)
      (hv ▸ hkept.sessions.orderly.used)
    obtain ⟨es, hgo⟩ := hends.amid
    exact ⟨x, w', es, hgo⟩

end Course

open Act in
/-- the guest, who has become the host, closes the room -/
theorem packets_keep_to_their_rights_closing : ∃ w' es,
    (guest.dispatch .roomClose).DoesAmid (.sparing fun _ => True) (following threeLines evening)
      (.ok ()) w' es ∧
    (following threeLines evening).hub.Allows guest .roomClose (.ok ()) w'.hub := by
  have hends : (guest.dispatch .roomClose).Ends (following threeLines evening) (.ok ())
      ((guest.dispatch .roomClose).after 60 (following threeLines evening)) := ends_after rfl
  obtain ⟨es, hgo⟩ := hends.amid
  have hguest : guest ∈ known greetings := List.mem_cons_of_mem _ (List.mem_cons_self ..)
  obtain ⟨hallows, -⟩ := packets_keep_to_their_rights
    (course_evening (.sparing fun _ => True)).proper rfl hguest .roomClose
  exact ⟨_, es, hgo, (hallows _ _ _ hgo).1⟩

end RhythmLobby
