import RhythmLobby.Proofs.Room.Writes

/-!
# The records of all rooms

Room tasks that run alone leave the records of all rooms as memory has it by then.

* `Hub.Numbered`          every open room has an id of its own and a state of its own;
* `World.RoomBooks`       the records of rooms are as memory has it;
* `RoomBooks.changed`, `RoomBooks.dropped`, `RoomBooks.entered`   the books are kept;
* `World.RoomsKept`          besides, all rooms that can be found are open.
-/

namespace RhythmLobby
open Cache

/-! ## Rooms in memory -/

namespace Hub

variable {h : Hub} {ref ref' : RoomRef}

theorem room_setRoom_of_ne (hk : ref'.key ≠ ref.key) (r : Room) :
    (h.setRoom ref r).room ref' = h.room ref' := by
  simp [room, setRoom, List.getElem?_set_ne (Ne.symm hk)]

/-- `n` ids have been given away.  Every open room has one of them, and a state of its own in which
nobody is a member twice. -/
structure Numbered (n : Nat) (h : Hub) : Prop where
  next : h.nextRoom = Int32.ofNat (n + 1)
  taken : ∀ {id ref}, h.openRooms.get? id = some ref → ∃ k < n, id = Int32.ofNat (k + 1)
  named : ∀ {id ref}, h.openRooms.get? id = some ref → ref.id = id
  made : ∀ {id ref}, h.openRooms.get? id = some ref → ref.key < h.rooms.length
  alone : ∀ {id id' ref ref'}, h.openRooms.get? id = some ref → h.openRooms.get? id' = some ref' →
    ref.key = ref'.key → ref = ref'
  members : ∀ {id ref}, h.openRooms.get? id = some ref → (h.room ref).ids.Nodup

/-- all rooms that can be found are open -/
def AllOpen (h : Hub) : Prop :=
  ∀ {id ref}, h.openRooms.get? id = some ref → (h.room ref).closed = false

/-- the record of the settings that a room should have -/
def listingOf (h : Hub) (id : Int32) : Option Record :=
  (h.openRooms.get? id).bind fun ref => (h.room ref).liveListing.map .listing

/-- the record that a user should have as a member of a room -/
def playerOf (h : Hub) (id user : Int32) : Option Record :=
  (h.openRooms.get? id).bind fun ref => ((h.room ref).liveRecord user).map .player

/-- rooms stay as they are; who is where may change -/
structure SameRooms (h h' : Hub) : Prop where
  openRooms : h'.openRooms = h.openRooms
  rooms : h'.rooms = h.rooms
  nextRoom : h'.nextRoom = h.nextRoom

theorem listingOf_of_some {id : Int32} (hr : h.openRooms.get? id = some ref) :
    h.listingOf id = (h.room ref).liveListing.map .listing := by
  rw [listingOf, hr]
  rfl

theorem listingOf_of_none {id : Int32} (hr : h.openRooms.get? id = none) :
    h.listingOf id = none := by
  rw [listingOf, hr]
  rfl

theorem playerOf_of_some {id user : Int32} (hr : h.openRooms.get? id = some ref) :
    h.playerOf id user = ((h.room ref).liveRecord user).map .player := by
  rw [playerOf, hr]
  rfl

theorem playerOf_of_none {id user : Int32} (hr : h.openRooms.get? id = none) :
    h.playerOf id user = none := by
  rw [playerOf, hr]
  rfl

section SameRooms

variable {h' : Hub}

theorem SameRooms.room (hs : h.SameRooms h') (ref : RoomRef) : h'.room ref = h.room ref := by
  rw [Hub.room, Hub.room, hs.rooms]

theorem SameRooms.numbered (hs : h.SameRooms h') {n : Nat} (hn : h.Numbered n) :
    h'.Numbered n where
  next := hs.nextRoom.trans hn.next
  taken hr := hn.taken (hs.openRooms ▸ hr)
  named hr := hn.named (hs.openRooms ▸ hr)
  made hr := by
    rw [hs.rooms]
    exact hn.made (hs.openRooms ▸ hr)
  alone hr hr' := hn.alone (hs.openRooms ▸ hr) (hs.openRooms ▸ hr')
  members hr := by
    rw [hs.room]
    exact hn.members (hs.openRooms ▸ hr)

theorem SameRooms.allOpen (hs : h.SameRooms h') (ho : h.AllOpen) : h'.AllOpen := by
  intro id ref hr
  rw [hs.room]
  exact ho (hs.openRooms ▸ hr)

theorem SameRooms.listingOf (hs : h.SameRooms h') (id : Int32) :
    h'.listingOf id = h.listingOf id := by
  simp only [Hub.listingOf, hs.openRooms, hs.room]

theorem SameRooms.playerOf (hs : h.SameRooms h') (id user : Int32) :
    h'.playerOf id user = h.playerOf id user := by
  simp only [Hub.playerOf, hs.openRooms, hs.room]

end SameRooms

/-! ## One room changes -/

section Changed

variable {n : Nat} {r' : Room}

/-- among the open rooms nothing but the state of one of them changes -/
theorem Numbered.room_setRoom (hn : h.Numbered n) (hr : h.openRooms.get? ref.id = some ref)
    {id : Int32} (hr' : h.openRooms.get? id = some ref') :
    (h.setRoom ref r').room ref' = if id = ref.id then r' else h.room ref' := by
  by_cases hid : id = ref.id
  · subst hid
    rw [hr] at hr'
    cases hr'
    rw [if_pos rfl, Hub.room_setRoom (hn.made hr)]
  · rw [if_neg hid, room_setRoom_of_ne]
    intro hk
    cases hn.alone hr' hr hk
    exact hid (hn.named hr').symm

theorem Numbered.setRoom (hn : h.Numbered n) (hr : h.openRooms.get? ref.id = some ref)
    (hmembers : r'.ids.Nodup) : (h.setRoom ref r').Numbered n where
  next := hn.next
  taken := hn.taken
  named := hn.named
  made hr' := by
    rw [length_setRoom]
    exact hn.made hr'
  alone := hn.alone
  members {id ref'} hr' := by
    rw [hn.room_setRoom hr hr']
    split
    · exact hmembers
    · exact hn.members hr'

theorem Numbered.listingOf_setRoom (hn : h.Numbered n)
    (hr : h.openRooms.get? ref.id = some ref) (id : Int32) :
    (h.setRoom ref r').listingOf id =
      if id = ref.id then r'.liveListing.map .listing else h.listingOf id := by
  cases hr' : h.openRooms.get? id with
  | none =>
    rw [listingOf_of_none hr', listingOf_of_none (h := h.setRoom ref r') hr', if_neg]
    intro hid
    rw [hid, hr] at hr'
    cases hr'
  | some ref' =>
    rw [listingOf_of_some (h := h.setRoom ref r') hr', listingOf_of_some hr',
      hn.room_setRoom hr hr']
    split <;> rfl

theorem Numbered.playerOf_setRoom (hn : h.Numbered n)
    (hr : h.openRooms.get? ref.id = some ref) (id user : Int32) :
    (h.setRoom ref r').playerOf id user =
      if id = ref.id then (r'.liveRecord user).map .player else h.playerOf id user := by
  cases hr' : h.openRooms.get? id with
  | none =>
    rw [playerOf_of_none hr', playerOf_of_none (h := h.setRoom ref r') hr', if_neg]
    intro hid
    rw [hid, hr] at hr'
    cases hr'
  | some ref' =>
    rw [playerOf_of_some (h := h.setRoom ref r') hr', playerOf_of_some hr',
      hn.room_setRoom hr hr']
    split <;> rfl

end Changed

/-! ## A new room -/

section Entered

variable {n : Nat} {r : Room}

theorem get?_openRooms_enter (h : Hub) (r : Room) (id : Int32) :
    (Rooms.enter r h).2.openRooms.get? id =
      if r.id = id then some (Rooms.enter r h).1 else h.openRooms.get? id :=
  Table.get?_insert _ _ _ _

theorem room_enter_new (h : Hub) (r : Room) :
    (Rooms.enter r h).2.room (Rooms.enter r h).1 = r := by
  show ((h.rooms ++ [r])[h.rooms.length]?).getD _ = r
  rw [List.getElem?_concat_length]
  rfl

theorem room_enter_old (hk : ref.key < h.rooms.length) :
    (Rooms.enter r h).2.room ref = h.room ref := by
  show ((h.rooms ++ [r])[ref.key]?).getD _ = _
  rw [List.getElem?_append_left hk]
  rfl

theorem get?_openRooms_enter_cases {id : Int32}
    (hr : (Rooms.enter r h).2.openRooms.get? id = some ref) :
    (r.id = id ∧ ref = (Rooms.enter r h).1) ∨ h.openRooms.get? id = some ref := by
  rw [get?_openRooms_enter] at hr
  split at hr
  · cases hr
    exact .inl ⟨‹_›, rfl⟩
  · exact .inr hr

theorem Numbered.enter (hn : h.Numbered n) (hmembers : r.ids.Nodup)
    (hid : ∃ k < n, r.id = Int32.ofNat (k + 1)) : (Rooms.enter r h).2.Numbered n where
  next := hn.next
  taken hr := by
    rcases get?_openRooms_enter_cases hr with ⟨rfl, -⟩ | hr
    · exact hid
    · exact hn.taken hr
  named hr := by
    rcases get?_openRooms_enter_cases hr with ⟨rfl, rfl⟩ | hr
    · rfl
    · exact hn.named hr
  made hr := by
    have hlength : (Rooms.enter r h).2.rooms.length = h.rooms.length + 1 := List.length_append
    rw [hlength]
    rcases get?_openRooms_enter_cases hr with ⟨-, rfl⟩ | hr
    · exact Nat.lt_succ_self _
    · exact Nat.lt_succ_of_lt (hn.made hr)
  alone hr hr' hk := by
    have hkey : (Rooms.enter r h).1.key = h.rooms.length := rfl
    rcases get?_openRooms_enter_cases hr with ⟨-, rfl⟩ | hr <;>
      rcases get?_openRooms_enter_cases hr' with ⟨-, rfl⟩ | hr'
    · rfl
    · have := hn.made hr'
      omega
    · have := hn.made hr
      omega
    · exact hn.alone hr hr' hk
  members hr := by
    rcases get?_openRooms_enter_cases hr with ⟨-, rfl⟩ | hr
    · rw [room_enter_new]
      exact hmembers
    · rw [room_enter_old (hn.made hr)]
      exact hn.members hr

theorem Numbered.listingOf_enter (hn : h.Numbered n) (id : Int32) :
    (Rooms.enter r h).2.listingOf id =
      if id = r.id then r.liveListing.map .listing else h.listingOf id := by
  by_cases hid : id = r.id
  · rw [if_pos hid, listingOf_of_some ((get?_openRooms_enter h r id).trans (if_pos hid.symm)),
      room_enter_new]
  · rw [if_neg hid, listingOf, listingOf, get?_openRooms_enter, if_neg (Ne.symm hid)]
    cases hr : h.openRooms.get? id with
    | none => rfl
    | some ref => rw [Option.bind_some, Option.bind_some, room_enter_old (hn.made hr)]

theorem Numbered.playerOf_enter (hn : h.Numbered n) (id user : Int32) :
    (Rooms.enter r h).2.playerOf id user =
      if id = r.id then (r.liveRecord user).map .player else h.playerOf id user := by
  by_cases hid : id = r.id
  · rw [if_pos hid, playerOf_of_some ((get?_openRooms_enter h r id).trans (if_pos hid.symm)),
      room_enter_new]
  · rw [if_neg hid, playerOf, playerOf, get?_openRooms_enter, if_neg (Ne.symm hid)]
    cases hr : h.openRooms.get? id with
    | none => rfl
    | some ref => rw [Option.bind_some, Option.bind_some, room_enter_old (hn.made hr)]

end Entered

end Hub

/-! ## The books -/

namespace World

/-- The records of rooms are as memory has it, after `n` ids have been given away.  Only when ids
begin anew may a room take the id of an open one, whose members then leave records behind. -/
structure RoomBooks (n : Nat) (w : World) : Prop where
  reliable : w.Reliable
  numbered : w.hub.Numbered n
  listing : ∀ id, w.record (Key.room id).text = w.hub.listingOf id
  player : ∀ id user, w.record (Key.player id user).text = w.hub.playerOf id user ∨
    (w.hub.playerOf id user = none ∧ UInt32.size < n)

variable {n : Nat} {w w' : World} {ref : RoomRef} {r' : Room} {us : List Update}

theorem RoomBooks.elsewhere (hb : w.RoomBooks n) (hs : w.hub.SameRooms w'.hub)
    (hw : w'.Reliable)
    (hr : ∀ k : Key, k.OfRoom → w'.record k.text = w.record k.text) : w'.RoomBooks n where
  reliable := hw
  numbered := hs.numbered hb.numbered
  listing id := by rw [hr (.room id) trivial, hs.listingOf, hb.listing]
  player id user := by
    rw [hr (.player id user) trivial, hs.playerOf]
    exact hb.player id user

theorem RoomBooks.changed (hb : w.RoomBooks n) (hr : w.hub.openRooms.get? ref.id = some ref)
    (hmembers : r'.ids.Nodup) (hbrings : ref.Brings us (w.hub.room ref) r')
    (h : World.Recorded { w with hub := w.hub.setRoom ref r' } us w') : w'.RoomBooks n where
  reliable := h.reliable
  numbered := by
    rw [h.hub]
    exact hb.numbered.setRoom hr hmembers
  listing id := by
    rw [h.record, h.hub, hb.numbered.listingOf_setRoom hr]
    show Update.leaveAll us _ (w.record _) = _
    rw [hb.listing]
    by_cases hid : id = ref.id
    · subst hid
      rw [if_pos rfl, Hub.listingOf_of_some hr, hbrings.listing]
    · have hroom : Key.room id ≠ .room ref.id := fun heq => hid (by cases heq; rfl)
      rw [if_neg hid, hbrings.others _ _ hroom fun _ heq => by cases heq]
  player id user := by
    rw [h.record, h.hub, hb.numbered.playerOf_setRoom hr]
    show Update.leaveAll us _ (w.record _) = _ ∨ _
    by_cases hid : id = ref.id
    · subst hid
      rw [if_pos rfl]
      rcases hbrings.player user with hleaves | ⟨hsame, hleaves⟩
      · exact .inl (hleaves _)
      · rw [hleaves, hsame, ← Hub.playerOf_of_some hr]
        exact hb.player ref.id user
    · have hplayer : ∀ v, Key.player id user ≠ .player ref.id v :=
        fun _ heq => hid (by cases heq; rfl)
      rw [if_neg hid, hbrings.others _ _ (fun heq => by cases heq) hplayer]
      exact hb.player id user

theorem RoomBooks.dropped (hb : w.RoomBooks n) (hr : w.hub.openRooms.get? ref.id = some ref)
    (hclosed : (w.hub.room ref).closed = true) :
    RoomBooks n { w with hub := Rooms.drop ref.id w.hub } := by
  have hdrop : ∀ id, (Rooms.drop ref.id w.hub).openRooms.get? id =
      if ref.id = id then none else w.hub.openRooms.get? id :=
    fun id => Table.get?_erase _ _ _
  have hstill : ∀ {id ref'}, (Rooms.drop ref.id w.hub).openRooms.get? id = some ref' →
      w.hub.openRooms.get? id = some ref' := by
    intro id ref' h
    rw [hdrop] at h
    split at h
    · cases h
    · exact h
  have hlisting : ∀ id, (Rooms.drop ref.id w.hub).listingOf id = w.hub.listingOf id := by
    intro id
    by_cases hid : ref.id = id
    · subst hid
      rw [Hub.listingOf_of_none ((hdrop _).trans (if_pos rfl)), Hub.listingOf_of_some hr,
        Room.liveListing_of_closed hclosed]
      rfl
    · rw [Hub.listingOf, hdrop, if_neg hid]
      rfl
  have hplayer : ∀ id user, (Rooms.drop ref.id w.hub).playerOf id user =
      w.hub.playerOf id user := by
    intro id user
    by_cases hid : ref.id = id
    · subst hid
      rw [Hub.playerOf_of_none ((hdrop _).trans (if_pos rfl)), Hub.playerOf_of_some hr,
        Room.liveRecord_of_closed hclosed]
      rfl
    · rw [Hub.playerOf, hdrop, if_neg hid]
      rfl
  have hn := hb.numbered
  refine ⟨hb.reliable, ⟨hn.next, fun h => hn.taken (hstill h), fun h => hn.named (hstill h),
    fun h => hn.made (hstill h), fun h h' => hn.alone (hstill h) (hstill h'),
    fun h => hn.members (hstill h)⟩, fun id => ?_, fun id user => ?_⟩
  · rw [hlisting]
    exact hb.listing id
  · rw [hplayer]
    exact hb.player id user

/-- ids begin anew after all of them have been given away -/
theorem lt_of_ofNat_eq {k : Nat} (hk : k < n) (h : Int32.ofNat (n + 1) = Int32.ofNat (k + 1)) :
    UInt32.size < n + 1 := by
  have hmod : (n + 1) % UInt32.size = (k + 1) % UInt32.size := by
    have := congrArg (fun i : Int32 => i.toUInt32.toNat) h
    simpa only [Int32.toUInt32_ofNat', UInt32.toNat_ofNat'] using this
  refine Nat.lt_of_not_le fun hn => ?_
  have hk' : (k + 1) % UInt32.size = k + 1 := Nat.mod_eq_of_lt (by omega)
  by_cases hlast : n + 1 = UInt32.size
  · rw [hlast, Nat.mod_self, hk'] at hmod
    omega
  · rw [Nat.mod_eq_of_lt (by omega), hk'] at hmod
    omega

/-- an id is given away; it is not that of an open room, or ids have begun anew -/
theorem RoomBooks.takeId (hb : w.RoomBooks n) :
    RoomBooks (n + 1) { w with hub := (Rooms.takeId w.hub).2 } ∧
      (Rooms.takeId w.hub).1 = Int32.ofNat (n + 1) ∧
      (w.hub.openRooms.get? (Int32.ofNat (n + 1)) = none ∨ UInt32.size < n + 1) := by
  have hn := hb.numbered
  have hnumbered : (Rooms.takeId w.hub).2.Numbered (n + 1) := by
    refine ⟨?_, fun hr => ?_, hn.named, hn.made, hn.alone, hn.members⟩
    · show w.hub.nextRoom + 1 = _
      rw [hn.next, Int32.ofNat_add (n + 1) 1]
      rfl
    · obtain ⟨k, hk, hid⟩ := hn.taken hr
      exact ⟨k, Nat.lt_succ_of_lt hk, hid⟩
  have hbooks : RoomBooks (n + 1) { w with hub := (Rooms.takeId w.hub).2 } := by
    refine ⟨hb.reliable, hnumbered, hb.listing, fun id user => ?_⟩
    exact (hb.player id user).imp_right fun h => ⟨h.1, Nat.lt_succ_of_lt h.2⟩
  refine ⟨hbooks, hn.next, ?_⟩
  cases hr : w.hub.openRooms.get? (Int32.ofNat (n + 1)) with
  | none => exact .inl rfl
  | some ref =>
    obtain ⟨k, hk, hid⟩ := hn.taken hr
    exact .inr (lt_of_ofNat_eq hk hid)

theorem RoomBooks.entered {r : Room} (hb : w.RoomBooks n) (hopen : r.closed = false)
    (hmembers : r.ids.Nodup) (hid : ∃ k < n, r.id = Int32.ofNat (k + 1))
    (hfresh : w.hub.openRooms.get? r.id = none ∨ UInt32.size < n)
    (h : World.Recorded { w with hub := (Rooms.enter r w.hub).2 } (Room.published r.id r) w') :
    w'.RoomBooks n where
  reliable := h.reliable
  numbered := by
    rw [h.hub]
    exact hb.numbered.enter hmembers hid
  listing id := by
    rw [h.record, h.hub]
    show Update.leaveAll _ _ (w.record _) = (Rooms.enter r w.hub).2.listingOf id
    rw [hb.numbered.listingOf_enter]
    by_cases hid : id = r.id
    · subst hid
      rw [if_pos rfl, Room.leaveAll_published_listing r.id hopen]
    · have hroom : Key.room id ≠ .room r.id := fun heq => hid (by cases heq; rfl)
      rw [if_neg hid, Room.leaveAll_published_other hroom fun _ heq => by cases heq]
      exact hb.listing id
  player id user := by
    rw [h.record, h.hub]
    show Update.leaveAll _ _ (w.record _) = (Rooms.enter r w.hub).2.playerOf id user ∨
      ((Rooms.enter r w.hub).2.playerOf id user = none ∧ _)
    rw [hb.numbered.playerOf_enter]
    by_cases hid : id = r.id
    · subst hid
      rw [if_pos rfl, Room.leaveAll_published_player r.id user hopen hmembers]
      cases hr : r.liveRecord user with
      | some record => exact .inl rfl
      | none =>
        -- a record that is still there is one of an earlier room with the same id
        rcases hfresh with hnone | hover
        · rcases hb.player r.id user with hrecord | ⟨-, hover⟩
          · left
            rw [hrecord, Hub.playerOf_of_none hnone]
            rfl
          · exact .inr ⟨rfl, hover⟩
        · exact .inr ⟨rfl, hover⟩
    · have hother : ∀ v, Key.player id user ≠ .player r.id v :=
        fun _ heq => hid (by cases heq; rfl)
      rw [if_neg hid, Room.leaveAll_published_other (fun heq => by cases heq) hother]
      exact hb.player id user

end World

end RhythmLobby
