import RhythmLobby.Proofs.Room.Books

/-!
# Room tasks keep the books

* `World.InRoom`, `World.Closing`   the books while a task is at work on one room;
* `takes_changePlayer` to `takes_close`   what is done with one room;
* `Rooms.takes_leave` to `Rooms.takes_create`   rooms are left, closed, entered and opened.
-/

namespace RhythmLobby
open Cache Routine

namespace World

/-- The books are right, all rooms that can be found are open, and at most `n` ids have been given
away. -/
def RoomsKept (n : Nat) (w : World) : Prop := ∃ k, k ≤ n ∧ w.RoomBooks k ∧ w.hub.AllOpen

/-- besides, this room can be found -/
structure InRoom (n : Nat) (ref : RoomRef) (w : World) : Prop where
  roomsKept : w.RoomsKept n
  listed : w.hub.openRooms.get? ref.id = some ref

/-- the books are right, but this room has been closed and can still be found -/
structure Closing (n : Nat) (ref : RoomRef) (w : World) : Prop where
  books : ∃ k, k ≤ n ∧ w.RoomBooks k
  listed : w.hub.openRooms.get? ref.id = some ref
  closed : (w.hub.room ref).closed = true
  others : ∀ {id ref'}, w.hub.openRooms.get? id = some ref' → id ≠ ref.id →
    (w.hub.room ref').closed = false

variable {n : Nat} {w w' : World} {ref : RoomRef} {us : List Update}

theorem RoomBooks.memory (hb : w.RoomBooks n) (hs : w.hub.SameRooms w'.hub)
    (hc : w'.cache = w.cache) : w'.RoomBooks n := by
  refine hb.elsewhere hs (fun m => by rw [hc, hb.reliable]) fun _ _ => ?_
  rw [record, record, hc]

theorem RoomsKept.elsewhere (hw : w.RoomsKept n) (hs : w.hub.SameRooms w'.hub)
    (hc : w'.cache = w.cache) : w'.RoomsKept n := by
  obtain ⟨k, hk, hb, ho⟩ := hw
  exact ⟨k, hk, hb.memory hs hc, hs.allOpen ho⟩

theorem RoomsKept.reliable (hw : w.RoomsKept n) : w.Reliable := by
  obtain ⟨_, _, hb, _⟩ := hw
  exact hb.reliable

theorem RoomsKept.congr (hhub : w'.hub = w.hub) (hcache : w'.cache = w.cache) (hw : w.RoomsKept n) :
    w'.RoomsKept n := hw.elsewhere (by rw [hhub]; exact ⟨rfl, rfl, rfl⟩) hcache

theorem RoomsKept.mono {m : Nat} (hw : w.RoomsKept n) (hm : n ≤ m) : w.RoomsKept m := by
  obtain ⟨k, hk, hb⟩ := hw
  exact ⟨k, Nat.le_trans hk hm, hb⟩

theorem InRoom.made (hw : w.InRoom n ref) : ref.key < w.hub.rooms.length := by
  obtain ⟨_, _, hb, _⟩ := hw.roomsKept
  exact hb.numbered.made hw.listed

theorem InRoom.isOpen (hw : w.InRoom n ref) : (w.hub.room ref).closed = false := by
  obtain ⟨_, _, _, ho⟩ := hw.roomsKept
  exact ho hw.listed

theorem InRoom.members (hw : w.InRoom n ref) : (w.hub.room ref).ids.Nodup := by
  obtain ⟨_, _, hb, _⟩ := hw.roomsKept
  exact hb.numbered.members hw.listed

theorem InRoom.changed (hw : w.InRoom n ref) (r' : Room) (hopen : r'.closed = false)
    (hmembers : r'.ids.Nodup) (hbrings : ref.Brings us (w.hub.room ref) r')
    (h : World.Recorded { w with hub := w.hub.setRoom ref r' } us w') : w'.InRoom n ref := by
  obtain ⟨⟨k, hk, hb, ho⟩, hr⟩ := hw
  refine ⟨⟨k, hk, hb.changed hr hmembers hbrings h, fun {id ref'} hr' => ?_⟩,
    by rw [h.hub]; exact hr⟩
  rw [h.hub] at hr' ⊢
  rw [hb.numbered.room_setRoom hr hr']
  split
  · exact hopen
  · exact ho hr'

theorem InRoom.closing (hw : w.InRoom n ref) (r' : Room) (hclosed : r'.closed = true)
    (hmembers : r'.ids.Nodup) (hbrings : ref.Brings us (w.hub.room ref) r')
    (h : World.Recorded { w with hub := w.hub.setRoom ref r' } us w') : w'.Closing n ref := by
  have hmade := hw.made
  obtain ⟨⟨k, hk, hb, ho⟩, hr⟩ := hw
  refine ⟨⟨k, hk, hb.changed hr hmembers hbrings h⟩, by rw [h.hub]; exact hr, ?_,
    fun {id ref'} hr' hid => ?_⟩
  · rw [h.hub]
    show ((w.hub.setRoom ref r').room ref).closed = true
    rwa [Hub.room_setRoom hmade]
  · rw [h.hub] at hr' ⊢
    rw [hb.numbered.room_setRoom hr hr', if_neg hid]
    exact ho hr'

theorem Closing.dropped (hw : w.Closing n ref) :
    RoomsKept n { w with hub := Rooms.drop ref.id w.hub } := by
  obtain ⟨⟨k, hk, hb⟩, hr, hclosed, hothers⟩ := hw
  refine ⟨k, hk, hb.dropped hr hclosed, fun {id ref'} hr' => ?_⟩
  have hr' : (w.hub.openRooms.erase ref.id).get? id = some ref' := hr'
  rw [Table.get?_erase] at hr'
  split at hr'
  · cases hr'
  · exact hothers hr' (Ne.symm ‹_›)

end World

open World

/-! ## One room -/

namespace RoomRef

variable {n : Nat} {ref : RoomRef} {β : Type}

theorem change_ends {op : Room → Except RoomError (β × Room)} {w w' : World}
    {x : Except RoomError β} (h : (ref.change op).Ends w x w') :
    (∃ e, x = .error e ∧ w' = w) ∨ ∃ y r', op (w.hub.room ref) = .ok (y, r') ∧ x = .ok y ∧
      w' = { w with hub := w.hub.setRoom ref r' } := by
  obtain ⟨hx, hw'⟩ := ends_transact.mp h
  cases ho : op (w.hub.room ref) with
  | error e =>
    rw [ho] at hx hw'
    exact .inl ⟨e, hx, hw'⟩
  | ok p =>
    rw [ho] at hx hw'
    exact .inr ⟨p.1, p.2, rfl, hx, hw'⟩

theorem takes_changePlayer {op : Room → Except RoomError (PlayerRecord × Room)}
    (hop : ∀ r record r', op r = .ok (record, r') →
      r.PlayerChange record.profile.userId record r') :
    (ref.changePlayer op).Takes (InRoom n ref) fun _ => InRoom n ref := by
  intro w x w' hw h
  obtain ⟨y, w₁, h₁, hrest⟩ := ends_bind.mp h
  rcases change_ends h₁ with ⟨e, rfl, rfl⟩ | ⟨record, r', ho, rfl, rfl⟩
  · obtain ⟨-, rfl⟩ := ends_done.mp hrest
    exact hw
  · obtain ⟨_, w₂, h₂, hdone⟩ := ends_bind.mp hrest
    obtain ⟨-, rfl⟩ := ends_done.mp hdone
    have hchange := hop _ _ _ ho
    refine hw.changed r' hchange.isOpen (hchange.nodup hw.members) hchange.brings
      (recorded_writePlayer hw.roomsKept.reliable ?_ h₂)
    show ((w.hub.setRoom ref r').room ref).liveRecord _ = _
    rw [Hub.room_setRoom hw.made, Room.liveRecord_of_open hchange.isOpen, hchange.record]

theorem takes_changeListing {op : Room → Except RoomError Room}
    (hop : ∀ r r', op r = .ok r' → r.ListingChange r') :
    (ref.changeListing op).Takes (InRoom n ref) fun _ => InRoom n ref := by
  intro w x w' hw h
  obtain ⟨y, w₁, h₁, hrest⟩ := ends_bind.mp h
  rcases change_ends h₁ with ⟨e, rfl, rfl⟩ | ⟨l, r', ho, rfl, rfl⟩
  · obtain ⟨-, rfl⟩ := ends_done.mp hrest
    exact hw
  · obtain ⟨_, w₂, h₂, hdone⟩ := ends_bind.mp hrest
    obtain ⟨-, rfl⟩ := ends_done.mp hdone
    obtain ⟨r, hok, hr⟩ := Room.map_ok ho
    cases hr
    have hchange := hop _ _ hok
    refine hw.changed r' hchange.isOpen ?_ hchange.brings
      (recorded_writeListing hw.roomsKept.reliable ?_ h₂)
    · rw [Room.ids, hchange.members]
      exact hw.members
    · show ((w.hub.setRoom ref r').room ref).liveListing = _
      rw [Hub.room_setRoom hw.made, Room.liveListing_of_open hchange.isOpen]

theorem takes_changeAll {op : Room → Except RoomError Room}
    (hop : ∀ r r', op r = .ok r' → r.Reset r') :
    (ref.changeAll op).Takes (InRoom n ref) fun _ => InRoom n ref := by
  intro w x w' hw h
  obtain ⟨y, w₁, h₁, hrest⟩ := ends_bind.mp h
  rcases change_ends h₁ with ⟨e, rfl, rfl⟩ | ⟨_, r', ho, rfl, rfl⟩
  · obtain ⟨-, rfl⟩ := ends_done.mp hrest
    exact hw
  · obtain ⟨_, w₂, h₂, hdone⟩ := ends_bind.mp hrest
    obtain ⟨-, rfl⟩ := ends_done.mp hdone
    obtain ⟨r, hok, hr⟩ := Room.map_ok ho
    cases hr
    have hchange := hop _ _ hok
    have hmembers : r'.ids.Nodup := hchange.ids ▸ hw.members
    have hroom : (w.hub.setRoom ref r').room ref = r' := Hub.room_setRoom hw.made r'
    have hwritten := recorded_publish (w := { w with hub := w.hub.setRoom ref r' })
      hw.roomsKept.reliable (by rw [hroom]; exact hchange.isOpen) (by rw [hroom]; exact hmembers) h₂
    rw [hroom] at hwritten
    exact hw.changed r' hchange.isOpen hmembers (hchange.brings hmembers) hwritten

theorem takes_memberChange {op : Room → Except RoomError (PlayerRecord × Room)} {user : Int32}
    (hop : ∀ r record r', op r = .ok (record, r') → r.PlayerChange user record r')
    (f : Except RoomError PlayerRecord → Except RoomError β) :
    ((ref.changePlayer op).bind fun x => .done (f x)).Takes (InRoom n ref)
      fun _ => InRoom n ref := by
  refine takes_bind (takes_changePlayer fun r record r' h => ?_) fun _ =>
    takes_done fun _ hw => hw
  have hchange := hop _ _ _ h
  rwa [hchange.owner]

/-! A member goes, and the room may be closed with it. -/

theorem brings_refl (r : Room) : ref.Brings [] r r :=
  ⟨fun _ _ _ _ => rfl, rfl, fun _ => .inr ⟨rfl, fun _ => rfl⟩⟩

theorem recorded_noPlayer {user : Int32} {w w' : World} {x : Unit} (hw : w.Reliable)
    (hn : (w.hub.room ref).liveRecord user = none)
    (h : ((Routine.update (.noPlayer ref.id user)).bind fun _ =>
      ref.settlePlayer user none).Ends w x w') : w.Recorded [.noPlayer ref.id user] w' := by
  obtain ⟨_, w₁, h₁, h₂⟩ := ends_bind.mp h
  rw [ends_update] at h₁
  subst h₁
  rw [← World.update_hub w (.noPlayer ref.id user)] at hn
  rw [ends_settlePlayer_none hn h₂]
  exact recorded_update hw _

/-- the room changes at one moment, and then the records are seen to -/
theorem leave_ends {user : Int32} {w w' : World} {x : LeaveOutcome}
    (h : (ref.leave user).Ends w x w') : ∃ r', (w.hub.room ref).leave user = (x, r') ∧
      let w₁ : World := { w with hub := w.hub.setRoom ref r' }
      match x with
      | .notMember => w' = w₁
      | .emptied => w' = w₁.update (.noRoom ref.id [user])
      | .left => ((Routine.update (.noPlayer ref.id user)).bind fun _ =>
          ref.settlePlayer user none).Ends w₁ () w'
      | .hostPassed _ => ∃ w₂, ((Routine.update (.noPlayer ref.id user)).bind fun _ =>
          ref.settlePlayer user none).Ends w₁ () w₂ ∧
            (ref.writeListing r'.listing).Ends w₂ () w' := by
  obtain ⟨⟨outcome, l⟩, w₁, h₁, hrest⟩ := ends_bind.mp h
  rw [ends_transact] at h₁
  cases hl : (w.hub.room ref).leave user with
  | mk outcome' r' =>
    rw [hl] at h₁
    obtain ⟨hx, rfl⟩ := h₁
    cases hx
    cases outcome with
    | notMember =>
      obtain ⟨rfl, rfl⟩ := ends_done.mp hrest
      exact ⟨r', rfl, rfl⟩
    | emptied =>
      obtain ⟨_, w₂, h₂, hdone⟩ := ends_bind.mp hrest
      obtain ⟨rfl, rfl⟩ := ends_done.mp hdone
      exact ⟨r', rfl, ends_update.mp h₂⟩
    | left =>
      obtain ⟨_, w₂, h₂, hrest⟩ := ends_bind.mp hrest
      obtain ⟨_, w₃, h₃, hdone⟩ := ends_bind.mp hrest
      obtain ⟨rfl, rfl⟩ := ends_done.mp hdone
      exact ⟨r', rfl, ends_bind.mpr ⟨_, _, h₂, h₃⟩⟩
    | hostPassed host =>
      obtain ⟨_, w₂, h₂, hrest⟩ := ends_bind.mp hrest
      obtain ⟨_, w₃, h₃, hrest⟩ := ends_bind.mp hrest
      obtain ⟨_, w₄, h₄, hdone⟩ := ends_bind.mp hrest
      obtain ⟨rfl, rfl⟩ := ends_done.mp hdone
      exact ⟨r', rfl, w₃, ends_bind.mpr ⟨_, _, h₂, h₃⟩, h₄⟩

theorem takes_leave (user : Int32) : (ref.leave user).Takes (InRoom n ref) fun outcome =>
    if outcome = .emptied then Closing n ref else InRoom n ref := by
  intro w x w' hw h
  have hreliable := hw.roomsKept.reliable
  have hroom : ∀ r', (w.hub.setRoom ref r').room ref = r' := Hub.room_setRoom hw.made
  have hgone : ∀ r', r'.liveRecord user = none →
      ((w.hub.setRoom ref r').room ref).liveRecord user = none := by
    intro r' hr'
    rwa [hroom]
  have hwithout : ((w.hub.room ref).without user).liveRecord user = none := by
    rw [Room.liveRecord, Room.record_without, if_pos rfl, ite_self]
  obtain ⟨r', hleave, h⟩ := leave_ends h
  rcases Room.leave_cases (w.hub.room ref) user with
    hl | ⟨hopen, huser, ⟨hids, hl⟩ | ⟨-, hl | ⟨host, hl⟩⟩⟩
  all_goals
    rw [hl] at hleave
    cases hleave
  · have h : w' = { w with hub := w.hub.setRoom ref (w.hub.room ref) } := h
    subst h
    show InRoom n ref _
    exact hw.changed _ hw.isOpen hw.members (brings_refl _) (recorded_refl hreliable)
  · let r' : Room := { (w.hub.room ref).without user with closed := true }
    have h : w' = World.update { w with hub := w.hub.setRoom ref r' } (.noRoom ref.id [user]) := h
    subst h
    rw [if_pos rfl]
    refine hw.closing r' rfl ?_ (Room.brings_of_closed rfl fun v hv => ?_)
      (recorded_update (w := { w with hub := w.hub.setRoom ref r' }) hreliable _)
    · show ((w.hub.room ref).without user).ids.Nodup
      rw [hids]
      exact List.nodup_nil
    · by_cases hne : v = user
      · rw [hne]
        exact List.mem_singleton_self _
      · have hnone := Room.record_without (w.hub.room ref) user v
        rw [if_neg hne, Room.record_eq_none_iff.mpr (by rw [hids]; exact List.not_mem_nil)] at hnone
        exact absurd hv (Room.record_eq_none_iff.mp hnone.symm)
  · show InRoom n ref w'
    let r' : Room := (w.hub.room ref).without user
    exact hw.changed r' hopen (Room.nodup_without hw.members user) (Room.brings_of_left hopen)
      (recorded_noPlayer (w := { w with hub := w.hub.setRoom ref r' }) hreliable
        (hgone r' hwithout) h)
  · obtain ⟨w₂, h₂, h₃⟩ := h
    show InRoom n ref w'
    let r' : Room := ((w.hub.room ref).without user).hostedBy host
    have h₂ := recorded_noPlayer (w := { w with hub := w.hub.setRoom ref r' }) hreliable
      (hgone r' hwithout) h₂
    have hchange : ((w.hub.room ref).without user).ListingChange
        (((w.hub.room ref).without user).hostedBy host) := ⟨hopen, hopen, rfl, rfl⟩
    have hlisting : (w₂.hub.room ref).liveListing =
        some (((w.hub.room ref).without user).hostedBy host).listing := by
      rw [h₂.hub]
      show ((w.hub.setRoom ref _).room ref).liveListing = _
      rw [hroom, Room.liveListing_of_open hchange.isOpen]
    exact hw.changed r' hopen (Room.nodup_without hw.members user)
      ((Room.brings_of_left hopen).trans hchange.brings)
      (h₂.trans (recorded_writeListing h₂.reliable hlisting h₃))

theorem takes_close (caller : Option Int32) : (ref.close caller).Takes (InRoom n ref) fun x w =>
    Room.Answered (w.InRoom n ref) (fun _ => w.Closing n ref) x := by
  intro w x w' hw h
  obtain ⟨y, w₁, h₁, hrest⟩ := ends_bind.mp h
  rcases change_ends h₁ with ⟨e, rfl, rfl⟩ | ⟨members, r', ho, rfl, rfl⟩
  · obtain ⟨rfl, rfl⟩ := ends_done.mp hrest
    exact hw
  · obtain ⟨_, w₂, h₂, hdone⟩ := ends_bind.mp hrest
    obtain ⟨rfl, rfl⟩ := ends_done.mp hdone
    rw [ends_update] at h₂
    subst h₂
    obtain ⟨-, rfl, rfl⟩ := Room.close_ok ho
    let r' : Room := { w.hub.room ref with members := [], closed := true }
    exact hw.closing r' rfl List.nodup_nil (Room.brings_of_closed rfl fun _ hv => hv)
      (recorded_update (w := { w with hub := w.hub.setRoom ref r' }) hw.roomsKept.reliable _)

end RoomRef

/-! ## Who is in which room -/

theorem takes_of_silent {n : Nat} {α : Type} {r : Routine α} (hr : r.Silent) :
    r.Takes (RoomsKept n) fun _ => RoomsKept n :=
  hr.takes fun _ _ hhub hcache hw => hw.congr hhub hcache

/-- the refusal of a new room comes after an id has been given away -/
def RoomError.afterId : RoomError → Bool
  | alreadyMember => true
  | _ => false

namespace Rooms

variable {n : Nat}

theorem silent_gauge : gauge.Silent := within_bind (silent_read _) fun _ => silent_emit rfl

theorem takes_find (room : Int32) : (find room).Takes (RoomsKept n) fun found w =>
    w.RoomsKept n ∧ ∀ ref, found = some ref → ref.id = room ∧ w.InRoom n ref := by
  refine takes_read fun w hw => ⟨hw, fun ref hr => ?_⟩
  obtain ⟨_, _, hb, _⟩ := id hw
  have hid := hb.numbered.named hr
  exact ⟨hid, hw, hid ▸ hr⟩

theorem sameRooms_reserve (user room : Int32) (h : Hub) :
    h.SameRooms (reserve user room h).2 := by
  unfold reserve
  split <;> exact ⟨rfl, rfl, rfl⟩

theorem sameRooms_release (user room : Int32) (h : Hub) : h.SameRooms (release user room h) := by
  unfold release
  split <;> exact ⟨rfl, rfl, rfl⟩

theorem takes_release (user room : Int32) :
    (Routine.change (release user room)).Takes (RoomsKept n) fun _ => RoomsKept n :=
  takes_change fun w hw => hw.elsewhere (sameRooms_release user room w.hub) rfl

theorem takes_drop {ref : RoomRef} {room : Int32} (hid : ref.id = room) :
    (Routine.change (drop room)).Takes (Closing n ref) fun _ => RoomsKept n := by
  subst hid
  exact takes_change fun _ hw => hw.dropped

theorem takes_leave (user : Int32) : (leave user).Takes (RoomsKept n) fun _ => RoomsKept n := by
  refine takes_bind (Q := fun _ => RoomsKept n) ?_ fun place => ?_
  · exact takes_transact fun w hw => hw.elsewhere ⟨rfl, rfl, rfl⟩ rfl
  cases place with
  | none => exact takes_done fun _ hw => hw
  | some room =>
    refine takes_bind (takes_find room) fun found => ?_
    cases found with
    | none => exact takes_done fun _ hw => hw.1
    | some ref =>
      refine takes_bind (Q := fun outcome w => ref.id = room ∧
        (if outcome = .emptied then Closing n ref else InRoom n ref) w) ?_ fun outcome => ?_
      · intro w x w' hw h
        obtain ⟨hid, hr⟩ := hw.2 ref rfl
        exact ⟨hid, ref.takes_leave user hr h⟩
      · dsimp only
        split
        · refine takes_bind (Q := fun _ => RoomsKept n) ?_ fun _ =>
            takes_bind (takes_of_silent silent_gauge) fun _ => takes_done fun _ hw => hw
          intro w x w' hw h
          exact takes_drop hw.1 hw.2 h
        · exact takes_done fun _ hw => hw.2.roomsKept

theorem takes_remove (room : Int32) (caller : Option Int32) :
    (remove room caller).Takes (RoomsKept n) fun _ => RoomsKept n := by
  refine takes_bind (takes_find room) fun found => ?_
  cases found with
  | none => exact takes_done fun _ hw => hw.1
  | some ref =>
    refine takes_bind (Q := fun x w => ref.id = room ∧
      Room.Answered (w.InRoom n ref) (fun _ => w.Closing n ref) x) ?_ fun x => ?_
    · intro w x w' hw h
      obtain ⟨hid, hr⟩ := hw.2 ref rfl
      exact ⟨hid, ref.takes_close caller hr h⟩
    · cases x with
      | error e => exact takes_done fun _ hw => hw.2.roomsKept
      | ok members =>
        refine takes_bind (Q := fun _ => RoomsKept n) ?_ fun _ => ?_
        · intro w x w' hw h
          exact takes_drop hw.1 hw.2 h
        · refine takes_bind (takes_each (fun user => takes_release user room) members) fun _ => ?_
          exact takes_bind (takes_of_silent silent_gauge) fun _ => takes_done fun _ hw => hw

theorem takes_join (room : Int32) (profile : PlayerProfile) (guess : Option String) :
    (join room profile guess).Takes (RoomsKept n) fun _ => RoomsKept n := by
  refine takes_bind (takes_find room) fun found => ?_
  cases found with
  | none => exact takes_done fun _ hw => hw.1
  | some ref =>
    refine takes_bind (Q := fun _ => InRoom n ref) ?_ fun ok => ?_
    · refine takes_transact fun w hw => ?_
      have hr := (hw.2 ref rfl).2
      have hsame := sameRooms_reserve profile.userId room w.hub
      exact ⟨hr.roomsKept.elsewhere hsame rfl, hsame.openRooms ▸ hr.listed⟩
    · split
      · exact takes_done fun _ hw => hw.roomsKept
      · refine takes_bind (ref.takes_memberChange (fun _ _ _ => Room.join_ok) _) fun x => ?_
        cases x with
        | ok _ => exact takes_done fun _ hw => hw.roomsKept
        | error e =>
          refine takes_bind (Q := fun _ => RoomsKept n) ?_ fun _ => takes_done fun _ hw => hw
          intro w x w' hw h
          exact takes_release profile.userId room hw.roomsKept h

/-! A room is made. -/

/-- an id has been given away, and no open room has it unless ids have begun anew -/
def Allotted (n : Nat) (id : Int32) (w : World) : Prop :=
  ∃ k, k ≤ n ∧ w.RoomBooks (k + 1) ∧ w.hub.AllOpen ∧ id = Int32.ofNat (k + 1) ∧
    (w.hub.openRooms.get? id = none ∨ UInt32.size < k + 1)

theorem takes_takeId : (Routine.transact takeId).Takes (RoomsKept n) (Allotted n) := by
  refine takes_transact fun w hw => ?_
  obtain ⟨k, hk, hb, ho⟩ := hw
  obtain ⟨hb', hid, hfresh⟩ := hb.takeId
  rw [← hid] at hfresh
  exact ⟨k, hk, hb', ho, hid, hfresh⟩

theorem allotted_elsewhere {id : Int32} {w w' : World} (hw : Allotted n id w)
    (hs : w.hub.SameRooms w'.hub) (hc : w'.cache = w.cache) : Allotted n id w' := by
  obtain ⟨k, hk, hb, ho, hid, hfresh⟩ := hw
  exact ⟨k, hk, hb.memory hs hc, hs.allOpen ho, hid, by rwa [hs.openRooms]⟩

/-- whether an id was given away, where this came of the wish for a room -/
def idGiven : Except RoomError RoomRef → Bool
  | .ok _ => true
  | .error e => e.afterId

theorem takes_enter {r : Room} (hopen : r.closed = false) (hmembers : r.ids.Nodup) :
    ((Routine.transact (enter r)).bind fun ref => gauge.bind fun _ => ref.publish.bind fun _ =>
      .done (.ok ref : Except RoomError RoomRef)).Takes (Allotted n r.id)
        fun x => RoomsKept (n + (idGiven x).toNat) := by
  intro w x w' hexists h
  obtain ⟨k, hk, hb, ho, hid, hfresh⟩ := hexists
  obtain ⟨ref, w₁, h₁, h⟩ := ends_bind.mp h
  obtain ⟨rfl, rfl⟩ := ends_transact.mp h₁
  obtain ⟨_, w₂, h₂, h⟩ := ends_bind.mp h
  obtain ⟨_, w₃, h₃, h⟩ := ends_bind.mp h
  obtain ⟨rfl, rfl⟩ := ends_done.mp h
  have hroom := Hub.room_enter_new w.hub r
  have hsilent := (recorded_refl (w := { w with hub := (enter r w.hub).2 }) hb.reliable).silent
    silent_gauge h₂
  have hwritten := RoomRef.recorded_publish hsilent.reliable
    (by rw [hsilent.hub, hroom]; exact hopen) (by rw [hsilent.hub, hroom]; exact hmembers) h₃
  rw [hsilent.hub, hroom] at hwritten
  have hall := hsilent.trans hwritten
  refine ⟨k + 1, Nat.succ_le_succ hk, hb.entered hopen hmembers ⟨k, Nat.lt_succ_self k, hid⟩
    hfresh hall, fun {id ref'} hr => ?_⟩
  rw [hall.hub] at hr ⊢
  rcases Hub.get?_openRooms_enter_cases hr with ⟨-, rfl⟩ | hr
  · rw [hroom]
    exact hopen
  · rw [Hub.room_enter_old (hb.numbered.made hr)]
    exact ho hr

theorem takes_create (request : RoomRequest) (host : PlayerProfile) :
    (create request host).Takes (RoomsKept n) fun x => RoomsKept (n + (idGiven x).toNat) := by
  unfold create
  split
  · exact takes_done fun _ hw => hw.mono (Nat.le_add_right n _)
  refine takes_bind takes_takeId fun id => ?_
  refine takes_bind (Q := fun _ => Allotted n id) (takes_transact fun w hw => ?_) fun ok => ?_
  · exact allotted_elsewhere hw (sameRooms_reserve host.userId id w.hub) rfl
  · split
    · intro w x w' hexists h
      obtain ⟨k, hk, hb, ho, -⟩ := hexists
      obtain ⟨rfl, rfl⟩ := ends_done.mp h
      exact ⟨k + 1, Nat.succ_le_succ hk, hb, ho⟩
    · exact takes_enter (r := Room.create id _ request.password host) rfl
        (List.pairwise_singleton _ _)

end Rooms

end RhythmLobby
