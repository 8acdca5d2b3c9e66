import Mathlib.Data.List.Nodup
import RhythmLobby.Proofs.Room.Stages

/-!
# Who is where, and who is a member

The index of places and the rooms are changed at different moments, so that they disagree while
calls are under way.  What they disagree in is what some call has still to do.

* `Stage.Explains`       a place that a call accounts for, which is no membership;
* `Hub.Agrees`           places, members and open rooms agree, up to the calls under way;
* `Hub.Agrees.turn`      every step of a call keeps it;
* `Hub.Counted`          the ids that have been taken are different from the next one;
* `rooms_agree`          the agreement at any moment, and when no call is under way.
-/

namespace RhythmLobby

namespace Stage

/-- a call accounts for a user's place in a room of which the user is no member -/
def Explains (user id : Int32) : Stage → Prop
  | opening v i => v = user ∧ i = id
  | waiting v i => v = user ∧ i = id
  | closing i members => i = id ∧ user ∈ members
  | releasing i members => i = id ∧ user ∈ members
  | _ => False

/-- the room that a call has closed -/
def shut? : Stage → Option Int32
  | closing id _ => some id
  | releasing id _ => some id
  | _ => none

end Stage

open Stage

/-- Places, members and open rooms agree, up to the calls under way in their stages. -/
structure Hub.Agrees (h : Hub) (ss : List Stage) : Prop where
  /-- no two calls are made on behalf of one user -/
  users : (ss.filterMap Stage.user?).Nodup
  /-- no two rooms have one id -/
  ids : (h.rooms.map Room.id ++ ss.filterMap Stage.promised?).Nodup
  found : ∀ r ∈ h.rooms, r.closed = false → r.ids ≠ [] ∧ (h.openRooms.get? r.id).isSome = true
  dropped : ∀ r ∈ h.rooms, r.closed = true →
    r.ids = [] ∧ ((h.openRooms.get? r.id).isSome = true → ∃ members, closing r.id members ∈ ss)
  shut : ∀ s ∈ ss, ∀ id, s.shut? = some id → ∃ r ∈ h.rooms, r.id = id ∧ r.closed = true
  member : ∀ r ∈ h.rooms, ∀ user ∈ r.ids,
    h.memberships.get? user = some r.id ∨ leaving user r.id ∈ ss
  place : ∀ user id, h.memberships.get? user = some id →
    (∃ r ∈ h.rooms, r.id = id ∧ user ∈ r.ids) ∨ ∃ s ∈ ss, s.Explains user id
  leaving : ∀ user id, leaving user id ∈ ss → h.memberships.get? user = none
  opening : ∀ user id, opening user id ∈ ss →
    h.memberships.get? user = some id ∧ ∀ r ∈ h.rooms, user ∉ r.ids
  waiting : ∀ user id, waiting user id ∈ ss →
    (h.memberships.get? user = some id ∨ ∃ r ∈ h.rooms, r.id = id ∧ r.closed = true) ∧
      ∀ r ∈ h.rooms, user ∉ r.ids

namespace Hub.Agrees

variable {h : Hub} {s : Stage} {ss rest : List Stage} {user id : Int32}

/-! ## What follows at once -/

theorem perm {ss' : List Stage} (ha : h.Agrees ss) (hp : ss.Perm ss') : h.Agrees ss' where
  users := (hp.filterMap _).nodup ha.users
  ids := ((hp.filterMap _).append_left _).nodup ha.ids
  found := ha.found
  dropped r hr hc := by
    obtain ⟨hids, hclosing⟩ := ha.dropped r hr hc
    refine ⟨hids, fun hsome => ?_⟩
    obtain ⟨members, hm⟩ := hclosing hsome
    exact ⟨members, hp.mem_iff.mp hm⟩
  shut s hs := ha.shut s (hp.mem_iff.mpr hs)
  member r hr v hv := (ha.member r hr v hv).imp_right hp.mem_iff.mp
  place v i hv := (ha.place v i hv).imp_right fun ⟨s, hs, he⟩ => ⟨s, hp.mem_iff.mp hs, he⟩
  leaving v i hv := ha.leaving v i (hp.mem_iff.mpr hv)
  opening v i hv := ha.opening v i (hp.mem_iff.mpr hv)
  waiting v i hv := ha.waiting v i (hp.mem_iff.mpr hv)

theorem same (ha : h.Agrees ss) {r r' : Room} (hr : r ∈ h.rooms) (hr' : r' ∈ h.rooms)
    (hid : r.id = r'.id) : r = r' :=
  List.inj_on_of_nodup_map (List.Nodup.of_append_left ha.ids) hr hr' hid

theorem alone (ha : h.Agrees (s :: rest)) (hs : s.user? = some user) {t : Stage} (ht : t ∈ rest) :
    t.user? ≠ some user := by
  intro hu
  have hnodup := ha.users
  rw [List.filterMap_cons_some hs, List.nodup_cons] at hnodup
  exact hnodup.1 (List.mem_filterMap.mpr ⟨t, ht, hu⟩)

theorem fresh (ha : h.Agrees ss) (hs : s ∈ ss) (hp : s.promised? = some id) {r : Room}
    (hr : r ∈ h.rooms) : r.id ≠ id := by
  intro hid
  have hnodup := List.nodup_append.mp ha.ids
  refine hnodup.2.2 r.id (List.mem_map.mpr ⟨r, hr, rfl⟩) id ?_ hid
  exact List.mem_filterMap.mpr ⟨s, hs, hp⟩

/-- a user without a place that nobody acts for is a member of no room -/
theorem nobody (ha : h.Agrees ss) (hnot : ∀ id, .leaving user id ∉ ss)
    (hnone : h.memberships.get? user = none) : ∀ r ∈ h.rooms, user ∉ r.ids := by
  intro r hr hu
  rcases ha.member r hr user hu with hm | hl
  · rw [hnone] at hm
    cases hm
  · exact hnot r.id hl

/-- the call itself is the only one that might be about to leave on behalf of its user -/
theorem not_leaving (ha : h.Agrees (s :: rest)) (hs : s.user? = some user)
    (hne : ∀ id, s ≠ .leaving user id) (id : Int32) : .leaving user id ∉ s :: rest := by
  intro hl
  rcases List.mem_cons.mp hl with he | hl
  · exact hne id he.symm
  · exact ha.alone hs hl rfl

/-! ## Steps that leave memory alone -/

/-- a call for which nothing has been changed gives up -/
theorem giveUp (ha : h.Agrees (s :: rest)) (hs : s.Free) : h.Agrees (.idle :: rest) := by
  obtain ⟨husers, hids, hfound, hdropped, hshut, hmember, hplace, hleaving, hopening, hwaiting⟩ :=
    ha
  cases s <;> simp only [Stage.Free] at hs
  all_goals
    refine ⟨?_, ?_, hfound, ?_, ?_, ?_, ?_, ?_, ?_, ?_⟩
    all_goals grind [Stage.user?, Stage.promised?, Stage.shut?, Stage.Explains]

theorem strayed (ha : h.Agrees (.leaving user id :: rest))
    (hnot : ∀ r ∈ h.rooms, r.id = id → user ∉ r.ids) : h.Agrees (.idle :: rest) := by
  obtain ⟨husers, hids, hfound, hdropped, hshut, hmember, hplace, hleaving, hopening, hwaiting⟩ :=
    ha
  refine ⟨?_, ?_, hfound, ?_, ?_, ?_, ?_, ?_, ?_, ?_⟩
  all_goals grind [Stage.user?, Stage.promised?, Stage.shut?, Stage.Explains]

/-! ## Places -/

theorem reserve (ha : h.Agrees (.named user id :: rest)) (hnone : h.memberships.get? user = none) :
    ({ h with memberships := h.memberships.insert user id } : Hub).Agrees
      (.opening user id :: rest) := by
  have hnobody := ha.nobody (ha.not_leaving rfl nofun) hnone
  obtain ⟨husers, hids, hfound, hdropped, hshut, hmember, hplace, hleaving, hopening, hwaiting⟩ :=
    ha
  refine ⟨husers, hids, hfound, ?_, ?_, ?_, ?_, ?_, ?_, ?_⟩
  all_goals grind [Stage.user?, Stage.promised?, Stage.shut?, Stage.Explains, Table.get?_insert]

theorem wait (ha : h.Agrees (.busy user :: rest)) (hnone : h.memberships.get? user = none)
    (id : Int32) :
    ({ h with memberships := h.memberships.insert user id } : Hub).Agrees
      (.waiting user id :: rest) := by
  have hnobody := ha.nobody (ha.not_leaving rfl nofun) hnone
  have halone := fun t => ha.alone (s := .busy user) rfl (t := t)
  obtain ⟨husers, hids, hfound, hdropped, hshut, hmember, hplace, hleaving, hopening, hwaiting⟩ :=
    ha
  refine ⟨husers, hids, hfound, ?_, ?_, ?_, ?_, ?_, ?_, ?_⟩
  all_goals grind [Stage.user?, Stage.promised?, Stage.shut?, Stage.Explains, Table.get?_insert]

/-- a place is given back, by the user that is to join or by those who close the room -/
theorem refund (ha : h.Agrees (.waiting user id :: rest)) :
    (Rooms.release user id h).Agrees (.idle :: rest) := by
  have halone := fun t => ha.alone (s := .waiting user id) rfl (t := t)
  obtain ⟨husers, hids, hfound, hdropped, hshut, hmember, hplace, hleaving, hopening, hwaiting⟩ :=
    ha
  unfold Rooms.release
  split
  · refine ⟨?_, hids, hfound, ?_, ?_, ?_, ?_, ?_, ?_, ?_⟩
    all_goals grind [Stage.user?, Stage.promised?, Stage.shut?, Stage.Explains, Table.get?_erase]
  · refine ⟨?_, hids, hfound, ?_, ?_, ?_, ?_, ?_, ?_, ?_⟩
    all_goals grind [Stage.user?, Stage.promised?, Stage.shut?, Stage.Explains]

/-- a user gives back the place it has, if any, and is to leave the room -/
theorem vacate (ha : h.Agrees (.busy user :: rest)) (hsome : h.memberships.get? user = some id) :
    (Rooms.vacate user h).2.Agrees (.leaving user id :: rest) := by
  have halone := fun t => ha.alone (s := .busy user) rfl (t := t)
  obtain ⟨husers, hids, hfound, hdropped, hshut, hmember, hplace, hleaving, hopening, hwaiting⟩ :=
    ha
  refine ⟨husers, hids, hfound, ?_, ?_, ?_, ?_, ?_, ?_, ?_⟩
  all_goals grind [Stage.user?, Stage.promised?, Stage.shut?, Stage.Explains, Table.get?_erase,
    Rooms.vacate]

theorem placeless (ha : h.Agrees (.busy user :: rest)) (hnone : h.memberships.get? user = none) :
    (Rooms.vacate user h).2.Agrees (.idle :: rest) := by
  obtain ⟨husers, hids, hfound, hdropped, hshut, hmember, hplace, hleaving, hopening, hwaiting⟩ :=
    ha
  refine ⟨?_, hids, hfound, ?_, ?_, ?_, ?_, ?_, ?_, ?_⟩
  all_goals grind [Stage.user?, Stage.promised?, Stage.shut?, Stage.Explains, Table.get?_erase,
    Rooms.vacate]

/-- a former member of a closed room gives its place back -/
theorem release {members : List Int32} (ha : h.Agrees (.releasing id (user :: members) :: rest)) :
    (Rooms.release user id h).Agrees (.releasing id members :: rest) := by
  obtain ⟨r₀, hr₀, hid₀, hclosed₀⟩ := ha.shut _ (List.mem_cons_self ..) id rfl
  have hsame := fun r hr => ha.same (r := r) hr hr₀
  have hpromised : ∀ v, .opening v id ∉ rest := fun v hv =>
    ha.fresh (List.mem_cons_of_mem _ hv) rfl hr₀ hid₀
  obtain ⟨husers, hids, hfound, hdropped, hshut, hmember, hplace, hleaving, hopening, hwaiting⟩ :=
    ha
  -- the others of the closed room are still accounted for
  have hothers : ∀ v i, h.memberships.get? v = some i → (v ≠ user ∨ i ≠ id) →
      (∃ r ∈ h.rooms, r.id = i ∧ v ∈ r.ids) ∨
        ∃ s ∈ Stage.releasing id members :: rest, s.Explains v i := by
    intro v i hv hne
    rcases hplace v i hv with hr | ⟨s, hs, he⟩
    · exact .inl hr
    rcases List.mem_cons.mp hs with rfl | hs
    · obtain ⟨rfl, hm⟩ := he
      have hvm : v ∈ members := by
        rcases List.mem_cons.mp hm with rfl | hm
        · exact absurd hne (by simp)
        · exact hm
      exact .inr ⟨_, List.mem_cons_self .., rfl, hvm⟩
    · exact .inr ⟨s, List.mem_cons_of_mem _ hs, he⟩
  unfold Rooms.release
  split
  · refine ⟨husers, hids, hfound, ?_, ?_, ?_, ?_, ?_, ?_, ?_⟩
    all_goals grind [Stage.user?, Stage.promised?, Stage.shut?, Table.get?_erase]
  · refine ⟨husers, hids, hfound, ?_, ?_, ?_, ?_, ?_, ?_, ?_⟩
    all_goals grind [Stage.user?, Stage.promised?, Stage.shut?]

/-! ## Rooms -/

theorem key_unique {l : List Int32} (hl : l.Nodup) {j k : Nat} (hj : l[j]? = some id)
    (hk : l[k]? = some id) : j = k := by
  obtain ⟨hlt, hid⟩ := List.getElem?_eq_some_iff.mp hj
  obtain ⟨hlt', hid'⟩ := List.getElem?_eq_some_iff.mp hk
  exact hl.getElem_inj_iff.mp (hid.trans hid'.symm)

theorem mem_setRoom (ha : h.Agrees ss) {ref : RoomRef} {r : Room} (hr : h.Has ref r) (r' q : Room) :
    q ∈ (h.setRoom ref r').rooms ↔ q = r' ∨ (q ∈ h.rooms ∧ q.id ≠ r.id) := by
  constructor
  · intro hq
    obtain ⟨k, hk, rfl⟩ := List.getElem_of_mem hq
    have hk' : k < h.rooms.length := by
      rw [← Hub.length_setRoom h ref r']
      exact hk
    by_cases hkey : ref.key = k
    · subst hkey
      exact .inl (List.getElem_set_self ..)
    · have hold : (h.setRoom ref r').rooms[k] = h.rooms[k] := List.getElem_set_ne hkey _
      rw [hold]
      refine .inr ⟨List.getElem_mem hk', fun hid => hkey ?_⟩
      have hnodup : (h.rooms.map Room.id).Nodup := List.Nodup.of_append_left ha.ids
      have hk₀ : (h.rooms.map Room.id)[ref.key]? = some r.id := by
        rw [List.getElem?_map, hr.1]
        rfl
      have hk₁ : (h.rooms.map Room.id)[k]? = some r.id := by
        rw [List.getElem?_map, List.getElem?_eq_getElem hk', Option.map_some, hid]
      exact key_unique hnodup hk₀ hk₁
  · rintro (rfl | ⟨hq, hid⟩)
    · exact List.mem_iff_getElem?.mpr ⟨ref.key, List.getElem?_set_self hr.lt⟩
    · obtain ⟨k, hk⟩ := List.mem_iff_getElem?.mp hq
      have hkey : ref.key ≠ k := by
        intro heq
        subst heq
        rw [hr.1] at hk
        cases hk
        exact hid rfl
      exact List.mem_iff_getElem?.mpr ⟨k, (List.getElem?_set_ne hkey).trans hk⟩

theorem ids_setRoom {ref : RoomRef} {r r' : Room} (hr : h.Has ref r) (hid : r'.id = r.id) :
    (h.setRoom ref r').rooms.map Room.id = h.rooms.map Room.id := by
  have hsame : (h.rooms.map Room.id)[ref.key]? = some r.id := by
    rw [List.getElem?_map, hr.1]
    rfl
  obtain ⟨hlt, hget⟩ := List.getElem?_eq_some_iff.mp hsame
  show (h.rooms.set ref.key r').map Room.id = _
  rw [List.map_set, hid, ← hget]
  exact List.set_getElem_self hlt

theorem join {ref : RoomRef} (ha : h.Agrees (.waiting user ref.id :: rest)) {r r' : Room}
    (hr : h.Has ref r) (hopen : r.closed = false) (hid : r'.id = r.id) (hopen' : r'.closed = false)
    (hids : r'.ids = r.ids ++ [user]) : (h.setRoom ref r').Agrees (.idle :: rest) := by
  have hmem := ha.mem_setRoom hr r'
  have hsame := fun q hq => ha.same (r := q) hq hr.mem
  have hrooms := ids_setRoom hr hid
  have hin := hr.mem
  have href := hr.2
  have hfind : (h.setRoom ref r').openRooms = h.openRooms := rfl
  have hplaces : (h.setRoom ref r').memberships = h.memberships := rfl
  obtain ⟨husers, hpromised, hfound, hdropped, hshut, hmember, hplace, hleaving, hopening,
    hwaiting⟩ := ha
  refine ⟨?_, ?_, ?_, ?_, ?_, ?_, ?_, ?_, ?_, ?_⟩
  all_goals grind [Stage.user?, Stage.promised?, Stage.shut?, Stage.Explains]

/-- a user without a place leaves a room in which others remain -/
theorem leave {ref : RoomRef} (ha : h.Agrees (.leaving user ref.id :: rest)) {r r' : Room}
    (hr : h.Has ref r) (hopen : r.closed = false) (hid : r'.id = r.id) (hopen' : r'.closed = false)
    (hids : r'.ids = r.ids.filter (· ≠ user)) (hsome : r'.ids ≠ []) :
    (h.setRoom ref r').Agrees (.idle :: rest) := by
  have hmem := ha.mem_setRoom hr r'
  have hsame := fun q hq => ha.same (r := q) hq hr.mem
  have hrooms := ids_setRoom hr hid
  have hin := hr.mem
  have href := hr.2
  have hfind : (h.setRoom ref r').openRooms = h.openRooms := rfl
  have hplaces : (h.setRoom ref r').memberships = h.memberships := rfl
  obtain ⟨husers, hpromised, hfound, hdropped, hshut, hmember, hplace, hleaving, hopening,
    hwaiting⟩ := ha
  refine ⟨?_, ?_, ?_, ?_, ?_, ?_, ?_, ?_, ?_, ?_⟩
  all_goals grind [Stage.user?, Stage.promised?, Stage.shut?, Stage.Explains]

theorem empty {ref : RoomRef} (ha : h.Agrees (.leaving user ref.id :: rest)) {r r' : Room}
    (hr : h.Has ref r) (hopen : r.closed = false) (hid : r'.id = r.id) (hclosed : r'.closed = true)
    (hlast : r.ids.filter (· ≠ user) = []) (hids : r'.ids = []) :
    (h.setRoom ref r').Agrees (.closing ref.id [] :: rest) := by
  have hmem := ha.mem_setRoom hr r'
  have hsame := fun q hq => ha.same (r := q) hq hr.mem
  have hrooms := ids_setRoom hr hid
  have hin := hr.mem
  have href := hr.2
  have hfind : (h.setRoom ref r').openRooms = h.openRooms := rfl
  have hplaces : (h.setRoom ref r').memberships = h.memberships := rfl
  obtain ⟨husers, hpromised, hfound, hdropped, hshut, hmember, hplace, hleaving, hopening,
    hwaiting⟩ := ha
  refine ⟨?_, ?_, ?_, ?_, ?_, ?_, ?_, ?_, ?_, ?_⟩
  all_goals grind [Stage.user?, Stage.promised?, Stage.shut?, Stage.Explains]

/-- a room is closed, and its members still have their places -/
theorem close {ref : RoomRef} (ha : h.Agrees (.idle :: rest)) {r r' : Room}
    (hr : h.Has ref r) (hopen : r.closed = false) (hid : r'.id = r.id) (hclosed : r'.closed = true)
    (hids : r'.ids = []) : (h.setRoom ref r').Agrees (.closing ref.id r.ids :: rest) := by
  have hmem := ha.mem_setRoom hr r'
  have hsame := fun q hq => ha.same (r := q) hq hr.mem
  have hrooms := ids_setRoom hr hid
  have hin := hr.mem
  have href := hr.2
  have hfind : (h.setRoom ref r').openRooms = h.openRooms := rfl
  have hplaces : (h.setRoom ref r').memberships = h.memberships := rfl
  have hformer : ∀ v ∈ r.ids, ∃ s ∈ Stage.closing ref.id r.ids :: rest, s.Explains v r.id :=
    fun v hv => ⟨_, List.mem_cons_self .., hr.2.symm, hv⟩
  obtain ⟨husers, hpromised, hfound, hdropped, hshut, hmember, hplace, hleaving, hopening,
    hwaiting⟩ := ha
  refine ⟨?_, ?_, ?_, ?_, ?_, ?_, ?_, ?_, ?_, ?_⟩
  all_goals grind [Stage.user?, Stage.promised?, Stage.shut?, Stage.Explains]

theorem drop {members : List Int32} (ha : h.Agrees (.closing id members :: rest)) :
    (Rooms.drop id h).Agrees (.releasing id members :: rest) := by
  obtain ⟨r₀, hr₀, hid₀, hclosed₀⟩ := ha.shut _ (List.mem_cons_self ..) id rfl
  have hsame := fun r hr => ha.same (r := r) hr hr₀
  have hkept : ∀ v i, (∃ s ∈ Stage.closing id members :: rest, s.Explains v i) →
      ∃ s ∈ Stage.releasing id members :: rest, s.Explains v i := by
    intro v i hexists
    obtain ⟨s, hs, he⟩ := hexists
    rcases List.mem_cons.mp hs with rfl | hs
    · exact ⟨_, List.mem_cons_self .., he⟩
    · exact ⟨s, List.mem_cons_of_mem _ hs, he⟩
  obtain ⟨husers, hids, hfound, hdropped, hshut, hmember, hplace, hleaving, hopening, hwaiting⟩ :=
    ha
  refine ⟨husers, hids, ?_, ?_, ?_, ?_, fun v i hv => (hplace v i hv).imp_right (hkept v i), ?_, ?_,
    ?_⟩
  all_goals grind [Stage.shut?, Rooms.drop, Table.get?_erase]

/-- a new room can be found from now on, with its host as the only member -/
theorem enter {r : Room} (ha : h.Agrees (.opening user r.id :: rest)) (hopen : r.closed = false)
    (hids : r.ids = [user]) : (Rooms.enter r h).2.Agrees (.idle :: rest) := by
  have hrooms : (Rooms.enter r h).2.rooms = h.rooms ++ [r] := rfl
  have hplaces : (Rooms.enter r h).2.memberships = h.memberships := rfl
  have hfind := Hub.get?_openRooms_enter h r
  have hnew := fun q hq => ha.fresh (List.mem_cons_self ..) rfl (r := q) hq
  have halone := fun t => ha.alone (s := .opening user r.id) rfl (t := t)
  obtain ⟨husers, hpromised, hfound, hdropped, hshut, hmember, hplace, hleaving, hopening,
    hwaiting⟩ := ha
  refine ⟨?_, ?_, ?_, ?_, ?_, ?_, ?_, ?_, ?_, ?_⟩
  all_goals grind [Stage.user?, Stage.promised?, Stage.shut?, Stage.Explains]

theorem take (ha : h.Agrees (.starting user :: rest))
    (hnew : h.nextRoom ∉ h.rooms.map Room.id ++ rest.filterMap Stage.promised?) :
    (Rooms.takeId h).2.Agrees (.named user h.nextRoom :: rest) := by
  have hids : (h.rooms.map Room.id ++ h.nextRoom :: rest.filterMap Stage.promised?).Nodup :=
    List.nodup_middle.mpr (List.nodup_cons.mpr ⟨hnew, ha.ids⟩)
  obtain ⟨husers, hpromised, hfound, hdropped, hshut, hmember, hplace, hleaving, hopening,
    hwaiting⟩ := ha
  refine ⟨husers, hids, hfound, ?_, ?_, ?_, ?_, ?_, ?_, ?_⟩
  all_goals grind [Stage.shut?, Stage.Explains, Rooms.takeId]

end Hub.Agrees

/-! ## Ids -/

/-- `n` ids have been taken, and rooms and rooms to come have some of them -/
structure Hub.Counted (n : Nat) (h : Hub) (ss : List Stage) : Prop where
  next : h.nextRoom = Int32.ofNat (n + 1)
  taken : ∀ id ∈ h.rooms.map Room.id ++ ss.filterMap Stage.promised?,
    ∃ k < n, id = Int32.ofNat (k + 1)

namespace Hub.Counted

variable {h h' : Hub} {n : Nat} {ss ss' : List Stage} {user : Int32} {rest : List Stage}

/-- as long as not all ids have been taken, the next one is new -/
theorem fresh (hc : h.Counted n ss) (hn : n < UInt32.size) :
    h.nextRoom ∉ h.rooms.map Room.id ++ ss.filterMap Stage.promised? := by
  intro hm
  obtain ⟨k, hk, hid⟩ := hc.taken _ hm
  rw [hc.next] at hid
  have := World.lt_of_ofNat_eq hk hid
  omega

theorem mono {s s' : Stage} (hc : h.Counted n (s :: rest)) (hnext : h'.nextRoom = h.nextRoom)
    (hrooms : h'.rooms.map Room.id = h.rooms.map Room.id)
    (hpromised : ∀ id, s'.promised? = some id → s.promised? = some id) :
    h'.Counted n (s' :: rest) := by
  refine ⟨hnext.trans hc.next, fun id hid => hc.taken id ?_⟩
  rw [hrooms] at hid
  rcases List.mem_append.mp hid with hid | hid
  · exact List.mem_append_left _ hid
  · obtain ⟨t, ht, hp⟩ := List.mem_filterMap.mp hid
    refine List.mem_append_right _ (List.mem_filterMap.mpr ?_)
    rcases List.mem_cons.mp ht with rfl | ht
    · exact ⟨s, List.mem_cons_self .., hpromised id hp⟩
    · exact ⟨t, List.mem_cons_of_mem _ ht, hp⟩

theorem enter {r : Room} (hc : h.Counted n (.opening user r.id :: rest)) :
    (Rooms.enter r h).2.Counted n (.idle :: rest) := by
  refine ⟨hc.next, fun id hid => hc.taken id ?_⟩
  have hids : (Rooms.enter r h).2.rooms.map Room.id = h.rooms.map Room.id ++ [r.id] :=
    List.map_append
  rw [hids, List.append_assoc] at hid
  exact hid

theorem take (hc : h.Counted n (.starting user :: rest)) :
    (Rooms.takeId h).2.Counted (n + 1) (.named user h.nextRoom :: rest) := by
  refine ⟨?_, fun id hid => ?_⟩
  · show h.nextRoom + 1 = _
    rw [hc.next, Int32.ofNat_add (n + 1) 1]
    rfl
  · have hcases : id = h.nextRoom ∨
        id ∈ h.rooms.map Room.id ++ rest.filterMap Stage.promised? := by
      rcases List.mem_append.mp hid with hid | hid
      · exact .inr (List.mem_append_left _ hid)
      · rcases List.mem_cons.mp hid with rfl | hid
        · exact .inl rfl
        · exact .inr (List.mem_append_right _ hid)
    rcases hcases with rfl | hid
    · exact ⟨n, Nat.lt_succ_self n, hc.next⟩
    · obtain ⟨k, hk, hid⟩ := hc.taken id hid
      exact ⟨k, Nat.lt_succ_of_lt hk, hid⟩

end Hub.Counted

/-! ## Calls under way -/

/-- `calls` rooms at most are to be made, of which some have their ids -/
def Hub.InOrder (calls : Nat) (h : Hub) (ss : List Stage) : Prop :=
  ∃ n, n + ss.countP Stage.isStarting ≤ calls ∧ h.Counted n ss ∧ h.Agrees ss

namespace Hub.InOrder

variable {calls n : Nat} {h h' : Hub} {s s' : Stage} {rest : List Stage}

theorem of_agrees (ha : h'.Agrees (s' :: rest)) (hc : h.Counted n (s :: rest))
    (hn : n + (s :: rest).countP Stage.isStarting ≤ calls)
    (hnext : h'.nextRoom = h.nextRoom) (hrooms : h'.rooms.map Room.id = h.rooms.map Room.id)
    (hpromised : ∀ id, s'.promised? = some id → s.promised? = some id)
    (hstarting : s'.isStarting = false) : h'.InOrder calls (s' :: rest) := by
  refine ⟨n, ?_, hc.mono hnext hrooms hpromised, ha⟩
  have hfewer : (s' :: rest).countP Stage.isStarting ≤ (s :: rest).countP Stage.isStarting := by
    rw [List.countP_cons, List.countP_cons, hstarting]
    simp
  omega

theorem release_nextRoom (user id : Int32) (h : Hub) :
    (Rooms.release user id h).nextRoom = h.nextRoom := by
  unfold Rooms.release
  split <;> rfl

theorem turn (ho : h.InOrder calls (s :: rest)) (hlt : calls < UInt32.size)
    (ht : Stage.Turn h s h' s') : h'.InOrder calls (s' :: rest) := by
  obtain ⟨n, hn, hc, ha⟩ := ho
  cases ht with
  | stay s => exact ⟨n, hn, hc, ha⟩
  | giveUp hs => exact of_agrees (ha.giveUp hs) hc hn rfl rfl nofun rfl
  | take user =>
    have hcount : (Stage.starting user :: rest).countP Stage.isStarting =
        rest.countP Stage.isStarting + 1 := List.countP_cons_of_pos rfl
    have hnew := hc.fresh (by omega)
    refine ⟨n + 1, ?_, hc.take, ha.take hnew⟩
    rw [List.countP_cons_of_neg (by simp [Stage.isStarting])]
    omega
  | reserve hnone => exact of_agrees (ha.reserve hnone) hc hn rfl rfl (fun _ hid => hid) rfl
  | enter hopen hids => exact ⟨n, hn, hc.enter, ha.enter hopen hids⟩
  | wait hr hnone => exact of_agrees (ha.wait hnone _) hc hn rfl rfl nofun rfl
  | join hr hopen hid hopen' hids =>
    exact of_agrees (ha.join hr hopen hid hopen' hids) hc hn rfl (Agrees.ids_setRoom hr hid) nofun
      rfl
  | refund user id =>
    exact of_agrees ha.refund hc hn (release_nextRoom user id h)
      (congrArg _ (release_rooms user id h)) nofun rfl
  | placeless hnone => exact of_agrees (ha.placeless hnone) hc hn rfl rfl nofun rfl
  | vacate hsome => exact of_agrees (ha.vacate hsome) hc hn rfl rfl nofun rfl
  | @lost user id hnone =>
    refine of_agrees (ha.strayed fun r hr hid hu => ?_) hc hn rfl rfl nofun rfl
    -- a room with a member is open, and an open room is found
    have hopen : r.closed = false := by
      refine Bool.eq_false_iff.mpr fun hclosed => ?_
      rw [(ha.dropped r hr hclosed).1] at hu
      cases hu
    have hfound := (ha.found r hr hopen).2
    rw [hid, hnone] at hfound
    cases hfound
  | @miss user ref r hr hnot =>
    refine of_agrees (ha.strayed fun q hq hid hu => ?_) hc hn rfl rfl nofun rfl
    have hsame : q = r := ha.same hq hr.mem (hid.trans hr.2.symm)
    subst hsame
    rcases hnot with hclosed | hnot
    · rw [(ha.dropped q hq hclosed).1] at hu
      cases hu
    · exact hnot hu
  | leave hr hopen hid hopen' hids hsome =>
    exact of_agrees (ha.leave hr hopen hid hopen' hids hsome) hc hn rfl (Agrees.ids_setRoom hr hid)
      nofun rfl
  | empty hr hopen hid hclosed hlast hids =>
    exact of_agrees (ha.empty hr hopen hid hclosed hlast hids) hc hn rfl
      (Agrees.ids_setRoom hr hid) nofun rfl
  | close hr hopen hid hclosed hids =>
    exact of_agrees (ha.close hr hopen hid hclosed hids) hc hn rfl (Agrees.ids_setRoom hr hid)
      nofun rfl
  | drop id members => exact of_agrees ha.drop hc hn rfl rfl nofun rfl
  | release id user members =>
    exact of_agrees ha.release hc hn (release_nextRoom user id h)
      (congrArg _ (release_rooms user id h)) nofun rfl

theorem perm {ss ss' : List Stage} (ho : h.InOrder calls ss) (hp : ss.Perm ss') :
    h.InOrder calls ss' := by
  obtain ⟨n, hn, hc, ha⟩ := ho
  refine ⟨n, ?_, ⟨hc.next, fun id hid => hc.taken id ?_⟩, ha.perm hp⟩
  · rw [← hp.countP_eq]
    exact hn
  · exact ((hp.filterMap _).append_left _).mem_iff.mpr hid

end Hub.InOrder
namespace Stage

theorem Turn.user?_mono {h h' : Hub} {s s' : Stage} (ht : Turn h s h' s') {user : Int32}
    (hu : s'.user? = some user) : s.user? = some user := by
  cases ht with
  | stay s => exact hu
  | _ => first | exact hu | cases hu

end Stage

namespace RoomCall

/-- calls on behalf of one user are made one after another; rooms may be closed at any moment -/
def traffic : Traffic RoomCall where
  task := task
  may c i := ∀ user, i.user? = some user → ∀ (n : Nat) (j : RoomCall), c.past[n]? = some j →
    j.user? = some user → c.tasks[n]? = some (.done ())
  whole _ _ _ := False

/-- the stages of the calls, each of its own user -/
structure Aligned (ss : List Stage) (past : List RoomCall) : Prop where
  length : ss.length = past.length
  user : ∀ (n : Nat) (s : Stage) (user : Int32), ss[n]? = some s → s.user? = some user →
    ∃ i, past[n]? = some i ∧ i.user? = some user

/-- as long as there are ids for all rooms that are to be made -/
def Guarded (w : World) (ss : List Stage) (past : List RoomCall) : Prop :=
  Aligned ss past ∧
    (past.countP isCreate < UInt32.size → w.hub.InOrder (past.countP isCreate) ss)

theorem user?_stage {i : RoomCall} {user : Int32} (h : i.stage.user? = some user) :
    i.user? = some user := by
  cases i with
  | create request host =>
    rw [stage] at h
    split at h
    · exact h
    · cases h
  | join room profile guess => exact h
  | leave v => exact h
  | remove room caller => cases h

theorem isStarting_stage {i : RoomCall} (h : i.stage.isStarting = true) : i.isCreate = true := by
  cases i with
  | create request host => rfl
  | _ => cases h

/-- a call that has just arrived accounts for nothing -/
theorem stage_cases (i : RoomCall) : i.stage = .idle ∨ ∃ user,
    i.stage = .starting user ∨ i.stage = .busy user := by
  cases i with
  | create request host =>
    rw [stage]
    split
    · exact .inr ⟨_, .inl rfl⟩
    · exact .inl rfl
  | join room profile guess => exact .inr ⟨_, .inr rfl⟩
  | leave user => exact .inr ⟨_, .inr rfl⟩
  | remove room caller => exact .inl rfl

theorem aligned_concat {ss : List Stage} {past : List RoomCall} (ha : Aligned ss past)
    (i : RoomCall) : Aligned (ss ++ [i.stage]) (past ++ [i]) := by
  refine ⟨by simp [ha.length], fun n s user hs hu => ?_⟩
  rw [List.getElem?_append] at hs
  rw [List.getElem?_append, ← ha.length]
  split at hs
  · rename_i hlt
    rw [if_pos hlt]
    exact ha.user n s user hs hu
  · rename_i hge
    rw [if_neg hge]
    cases hk : n - ss.length with
    | zero =>
      rw [hk] at hs
      cases hs
      exact ⟨i, rfl, user?_stage hu⟩
    | succ k =>
      rw [hk] at hs
      cases hs

theorem aligned_set {before after : List Stage} {s s' : Stage} {past : List RoomCall}
    (ha : Aligned (before ++ s :: after) past)
    (hu : ∀ user, s'.user? = some user → s.user? = some user) :
    Aligned (before ++ s' :: after) past := by
  refine ⟨by simpa using ha.length, fun n t user ht htu => ?_⟩
  by_cases hn : n = before.length
  · subst hn
    rw [List.getElem?_append_right (Nat.le_refl _), Nat.sub_self] at ht
    cases ht
    exact ha.user before.length s user (by simp) (hu user htu)
  · have hsame : (before ++ s :: after)[n]? = (before ++ s' :: after)[n]? := by
      rw [List.getElem?_append, List.getElem?_append]
      split
      · rfl
      · obtain ⟨k, hk⟩ : ∃ k, n - before.length = k + 1 := ⟨n - before.length - 1, by omega⟩
        rw [hk]
        rfl
    exact ha.user n t user (hsame.trans ht) htu

/-- a call of a user arrives when no other call is made for the user -/
theorem notMem_of_may {c : Scene RoomCall} {ss : List Stage} {i : RoomCall}
    (ha : Aligned ss c.past) (hrest : Stage.discipline.Resting c ss) (hm : traffic.may c i)
    {user : Int32} (hu : i.user? = some user) : user ∉ ss.filterMap Stage.user? := by
  intro hmem
  obtain ⟨s, hs, hsu⟩ := List.mem_filterMap.mp hmem
  obtain ⟨n, hn⟩ := List.mem_iff_getElem?.mp hs
  obtain ⟨j, hj, hju⟩ := ha.user n s user hn hsu
  have hdone := hm user hu n j hj hju
  have hatRest : s.AtRest := hrest n s hdone hn
  cases s with
  | idle => cases hsu
  | releasing id members => cases hsu
  | _ => exact hatRest

theorem agrees_concat {h : Hub} {ss : List Stage} {i : RoomCall} (ha : h.Agrees ss)
    (hu : ∀ user, i.stage.user? = some user → user ∉ ss.filterMap Stage.user?) :
    h.Agrees (i.stage :: ss) := by
  have hcases := i.stage_cases
  generalize i.stage = s at hu hcases ⊢
  have husers : ((s :: ss).filterMap Stage.user?).Nodup := by
    rw [List.filterMap_cons]
    cases hs : s.user? with
    | none => exact ha.users
    | some user => exact List.nodup_cons.mpr ⟨hu user hs, ha.users⟩
  have hids : (s :: ss).filterMap Stage.promised? = ss.filterMap Stage.promised? := by
    rcases hcases with rfl | ⟨user, rfl | rfl⟩
    all_goals rfl
  obtain ⟨-, hpromised, hfound, hdropped, hshut, hmember, hplace, hleaving, hopening, hwaiting⟩ :=
    ha
  refine ⟨husers, hids ▸ hpromised, hfound, ?_, ?_, ?_, ?_, ?_, ?_, ?_⟩
  all_goals grind [Stage.shut?]

theorem inOrder_concat {h : Hub} {ss : List Stage} {calls : Nat} {i : RoomCall}
    (ho : h.InOrder calls ss)
    (hu : ∀ user, i.stage.user? = some user → user ∉ ss.filterMap Stage.user?) :
    h.InOrder (calls + [i].countP isCreate) (ss ++ [i.stage]) := by
  obtain ⟨n, hn, hc, ha⟩ := ho
  have hstarting : [i.stage].countP Stage.isStarting ≤ [i].countP isCreate := by
    rw [List.countP_singleton, List.countP_singleton]
    split
    · rename_i hs
      exact Nat.le_of_eq (if_pos (isStarting_stage hs)).symm
    · exact Nat.zero_le _
  have hids : (i.stage :: ss).filterMap Stage.promised? = ss.filterMap Stage.promised? := by
    rcases i.stage_cases with hs | ⟨user, hs | hs⟩
    all_goals
      rw [hs]
      rfl
  have hcounted : h.Counted n (i.stage :: ss) := ⟨hc.next, hids ▸ hc.taken⟩
  refine Hub.InOrder.perm ⟨n, ?_, hcounted, agrees_concat ha hu⟩
    (List.perm_append_singleton _ _).symm
  have hcount : (i.stage :: ss).countP Stage.isStarting =
      ss.countP Stage.isStarting + [i.stage].countP Stage.isStarting := by
    rw [List.countP_cons, List.countP_singleton]
  omega

theorem guards : Stage.discipline.Guards traffic Guarded where
  arrive {c ss i} _ hg hrest hm := by
    obtain ⟨haligned, horder⟩ := hg
    refine ⟨i.stage, i.keeps _, aligned_concat haligned i, fun hlt => ?_⟩
    rw [List.countP_append] at hlt ⊢
    refine inOrder_concat (horder (by omega)) fun user hu => ?_
    exact notMem_of_may haligned hrest hm (user?_stage hu)
  moves {w before s after past w' s'} hs hg hm := by
    obtain ⟨haligned, horder⟩ := hg
    cases hm with
    | turn ht =>
      refine ⟨aligned_set haligned fun user => Stage.Turn.user?_mono ht, fun hlt => ?_⟩
      have hfirst := (horder hlt).perm List.perm_middle
      exact (hfirst.turn hlt ht).perm List.perm_middle.symm
    | emit he =>
      subst he
      rw [Guarded, Effect.perform_hub]
      exact ⟨haligned, horder⟩
  whole _ _ hw := hw.elim

end RoomCall

/-- no room has ever been made -/
structure Hub.Roomless (h : Hub) : Prop where
  rooms : h.rooms = []
  openRooms : h.openRooms = ∅
  memberships : h.memberships = ∅
  nextRoom : h.nextRoom = 1

theorem Hub.roomless_start (database : Database) (timeouts : Timeouts) (flood : FloodLimits)
    (clock : Int64) : (Hub.start database timeouts flood clock).Roomless := ⟨rfl, rfl, rfl, rfl⟩

theorem Hub.Roomless.agrees {h : Hub} (hn : h.Roomless) : h.Agrees [] := by
  have hnone : ∀ r, r ∉ h.rooms := by
    intro r hr
    rw [hn.rooms] at hr
    cases hr
  have hplaces : ∀ user, h.memberships.get? user = none := by
    intro user
    rw [hn.memberships]
    rfl
  refine ⟨List.nodup_nil, ?_, ?_, ?_, ?_, ?_, ?_, ?_, ?_, ?_⟩
  · rw [hn.rooms]
    exact List.nodup_nil
  · exact fun r hr => absurd hr (hnone r)
  · exact fun r hr => absurd hr (hnone r)
  · exact fun s hs => absurd hs List.not_mem_nil
  · exact fun r hr => absurd hr (hnone r)
  · intro user id hm
    rw [hplaces] at hm
    cases hm
  · exact fun _ _ hs => absurd hs List.not_mem_nil
  · exact fun _ _ hs => absurd hs List.not_mem_nil
  · exact fun _ _ hs => absurd hs List.not_mem_nil

theorem Hub.Roomless.tasksFit {w : World} (hw : w.hub.Roomless) :
    Stage.discipline.TasksFit RoomCall.Guarded (⟨w, [], []⟩ : Scene RoomCall) := by
  have hcounted : w.hub.Counted 0 [] := by
    refine ⟨hw.nextRoom, fun id hid => ?_⟩
    rw [hw.rooms] at hid
    cases hid
  have haligned : RoomCall.Aligned [] [] := by
    refine ⟨rfl, fun n s user hs => ?_⟩
    cases hs
  refine ⟨fun hr => ?_, [], rfl, fun p hp => ?_, haligned, fun _ => ?_⟩
  · rw [hw.openRooms] at hr
    cases hr
  · cases hp
  · exact ⟨0, Nat.le_refl 0, hcounted, hw.agrees⟩

namespace Hub.Agrees

variable {h : Hub} {ss : List Stage}

theorem only (ha : h.Agrees ss) {s t : Stage} {user : Int32} (hs : s ∈ ss) (ht : t ∈ ss)
    (hsu : s.user? = some user) (htu : t.user? = some user) : t = s := by
  have hfirst := ha.perm (List.perm_cons_erase hs)
  by_cases hne : t = s
  · exact hne
  · exact absurd htu (hfirst.alone hsu ((List.mem_erase_of_ne hne).mpr ht))

theorem one_room (ha : h.Agrees ss) {r r' : Room} {user : Int32} (hr : r ∈ h.rooms)
    (hr' : r' ∈ h.rooms) (hu : user ∈ r.ids) (hu' : user ∈ r'.ids) : r.id = r'.id := by
  rcases ha.member r hr user hu with hm | hl
  · rcases ha.member r' hr' user hu' with hm' | hl'
    · exact Option.some.inj (hm.symm.trans hm')
    · rw [ha.leaving user _ hl'] at hm
      cases hm
  · rcases ha.member r' hr' user hu' with hm' | hl'
    · rw [ha.leaving user _ hl] at hm'
      cases hm'
    · have hsame := ha.only hl' hl rfl rfl
      exact (Stage.leaving.inj hsame).2

theorem room_mem (hf : Found h) {id : Int32} {ref : RoomRef}
    (hr : h.openRooms.get? id = some ref) : h.room ref ∈ h.rooms ∧ (h.room ref).id = id := by
  obtain ⟨rfl, r, hhas⟩ := hf hr
  rw [hhas.room]
  exact ⟨hhas.mem, hhas.2⟩

theorem places_of_rest (ha : h.Agrees ss) (hf : Found h) (hrest : ∀ s ∈ ss, s.AtRest)
    (user id : Int32) : h.memberships.get? user = some id ↔
      ∃ ref, h.openRooms.get? id = some ref ∧ user ∈ (h.room ref).ids := by
  constructor
  · intro hm
    rcases ha.place user id hm with ⟨r, hr, rfl, hu⟩ | ⟨s, hs, he⟩
    · have hopen : r.closed = false := by
        refine Bool.eq_false_iff.mpr fun hclosed => ?_
        rw [(ha.dropped r hr hclosed).1] at hu
        cases hu
      obtain ⟨ref, hfind⟩ := Option.isSome_iff_exists.mp (ha.found r hr hopen).2
      obtain ⟨hin, hid⟩ := room_mem hf hfind
      have hsame := ha.same hin hr hid
      exact ⟨ref, hfind, hsame ▸ hu⟩
    · have hatRest := hrest s hs
      cases s with
      | releasing i members =>
        obtain ⟨-, hu⟩ := he
        rw [show members = [] from hatRest] at hu
        cases hu
      | closing i members => exact hatRest.elim
      | opening v i => exact hatRest.elim
      | waiting v i => exact hatRest.elim
      | _ => exact he.elim
  · intro hexists
    obtain ⟨ref, hfind, hu⟩ := hexists
    obtain ⟨hin, rfl⟩ := room_mem hf hfind
    rcases ha.member _ hin user hu with hm | hl
    · exact hm
    · exact (hrest _ hl).elim

/-- with all calls at rest, what can be found is open and has members -/
theorem open_of_rest (ha : h.Agrees ss) (hf : Found h) (hrest : ∀ s ∈ ss, s.AtRest)
    {id : Int32} {ref : RoomRef} (hfind : h.openRooms.get? id = some ref) :
    (h.room ref).closed = false ∧ (h.room ref).ids ≠ [] := by
  obtain ⟨hin, hid⟩ := room_mem hf hfind
  have hopen : (h.room ref).closed = false := by
    refine Bool.eq_false_iff.mpr fun hclosed => ?_
    have hsome : (h.openRooms.get? (h.room ref).id).isSome = true := by
      rw [hid, hfind]
      rfl
    obtain ⟨members, hm⟩ := (ha.dropped _ hin hclosed).2 hsome
    exact (hrest _ hm).elim
  exact ⟨hopen, (ha.found _ hin hopen).1⟩

end Hub.Agrees

/-- Rooms are made, entered, left and closed by any number of calls, in any order of their steps,
where the calls of one user follow one another and less than 2^32 rooms are to be made.  At any
moment no two rooms have one id, and nobody is a member of two open rooms.  When no call is under
way, a user's place is the room that it is a member of, and all rooms that can be found are open and
have members. -/
theorem rooms_agree {w : World} (hw : w.hub.Roomless) {c : Scene RoomCall}
    (h : RoomCall.traffic.Reaches ⟨w, [], []⟩ c)
    (hlt : c.past.countP RoomCall.isCreate < UInt32.size) :
    (c.world.hub.rooms.map Room.id).Nodup ∧
    (∀ (j k : Nat) (r r' : Room) (user : Int32), c.world.hub.rooms[j]? = some r →
      c.world.hub.rooms[k]? = some r' → r.closed = false → r'.closed = false →
      user ∈ r.ids → user ∈ r'.ids → j = k) ∧
    (c.Quiet →
      (∀ user id, c.world.hub.memberships.get? user = some id ↔
        ∃ ref, c.world.hub.openRooms.get? id = some ref ∧ user ∈ (c.world.hub.room ref).ids) ∧
      ∀ id ref, c.world.hub.openRooms.get? id = some ref →
        (c.world.hub.room ref).closed = false ∧ (c.world.hub.room ref).ids ≠ []) := by
  have htasksFit := RoomCall.guards.reaches h hw.tasksFit
  have hfound : Found c.world.hub := htasksFit.1
  have hagrees : ∃ ss, c.world.hub.Agrees ss := by
    obtain ⟨-, ps, -, -, -, horder⟩ := htasksFit
    obtain ⟨n, -, -, hagrees⟩ := horder hlt
    exact ⟨_, hagrees⟩
  obtain ⟨ss, hagrees⟩ := hagrees
  have hids : (c.world.hub.rooms.map Room.id).Nodup := List.Nodup.of_append_left hagrees.ids
  refine ⟨hids, fun j k r r' user hj hk _ _ hu hu' => ?_, fun hq => ?_⟩
  · have hid := hagrees.one_room (List.mem_of_getElem? hj) (List.mem_of_getElem? hk) hu hu'
    have hj' : (c.world.hub.rooms.map Room.id)[j]? = some r.id := by
      rw [List.getElem?_map, hj]
      rfl
    have hk' : (c.world.hub.rooms.map Room.id)[k]? = some r.id := by
      rw [List.getElem?_map, hk, hid]
      rfl
    exact Hub.Agrees.key_unique hids hj' hk'
  · obtain ⟨ss, hrest, -, horder⟩ := htasksFit.rest hq
    obtain ⟨m, -, -, hagrees⟩ := horder hlt
    exact ⟨hagrees.places_of_rest hfound hrest,
      fun id ref hfind => hagrees.open_of_rest hfound hrest hfind⟩

/-! ## A room that is closed while a user joins it -/

namespace RoomCall

/-- user 7 makes a room -/
def made : Scene RoomCall :=
  (traffic.call ⟨.blank, [], []⟩ (.create ⟨"den", none, 4, ⟨1, 1, "", "", .keys4, .zero⟩⟩
    ⟨7, "ada", "", "", ""⟩)).turns (List.replicate 14 0)

/-- user 8 has its place in the room when the room is closed -/
def tooLate : Scene RoomCall :=
  (traffic.call (traffic.call made (.join 1 ⟨8, "bea", "", "", ""⟩ none)) (.remove 1 none)).turns
    [1, 1, 2, 2, 2, 1, 2, 1, 2, 2, 2]

theorem reaches_tooLate : traffic.Reaches ⟨.blank, [], []⟩ tooLate := by
  have hmake : traffic.Reaches ⟨.blank, [], []⟩ made :=
    .trans (.single (.arrive fun _ _ _ _ hj => by cases hj)) (Traffic.reaches_turns _ _ _)
  have hjoin : traffic.may made (.join 1 ⟨8, "bea", "", "", ""⟩ none) := by
    intro user hu n j hj hju
    have hpast : made.past.map user? = [some 7] := rfl
    have hn : (made.past.map user?)[n]? = some (some user) := by
      rw [List.getElem?_map, hj, Option.map_some, hju]
    cases hu
    rw [hpast] at hn
    cases n with
    | zero => cases hn
    | succ n => cases hn
  refine hmake.trans (.trans (.single (.arrive hjoin)) ?_)
  exact .trans (.single (.arrive fun _ hu => by cases hu)) (Traffic.reaches_turns _ _ _)

end RoomCall

open RoomCall in
theorem rooms_agree_tooLate :
    tooLate.past.countP isCreate < UInt32.size ∧ tooLate.Quiet ∧
      ∀ user id, tooLate.world.hub.memberships.get? user = some id ↔
        ∃ ref, tooLate.world.hub.openRooms.get? id = some ref ∧
          user ∈ (tooLate.world.hub.room ref).ids := by
  have hquiet : tooLate.Quiet := Scene.quiet_of_all (by decide +kernel)
  have hcount : tooLate.past.countP isCreate < UInt32.size := by decide +kernel
  have hroomless : World.blank.hub.Roomless := ⟨rfl, rfl, rfl, rfl⟩
  obtain ⟨-, -, hrest⟩ := rooms_agree hroomless reaches_tooLate hcount
  exact ⟨hcount, hquiet, (hrest hquiet).1⟩

end RhythmLobby
