import RhythmLobby.Proofs.Room.Steady

/-!
# What becomes of rooms in memory

A task that runs alone changes memory at a few moments, if it is not refused.  Here is what memory
is like once such a task has ended.

* `RoomRef.changePlayer_ends` to `RoomRef.close_ends`   a change of one room;
* `Rooms.leave_ends`, `Rooms.remove_ends`               a user leaves, and a room is closed;
* `Rooms.join_ends`, `Rooms.create_ends`                a user comes.
-/

namespace RhythmLobby
open Cache Routine World

/-! ## One room -/

namespace RoomRef

variable {ref : RoomRef} {w w' : World}

theorem changePlayer_ends {op : Room → Except RoomError (PlayerRecord × Room)}
    {x : Except RoomError PlayerRecord} (h : (ref.changePlayer op).Ends w x w') :
    (∃ e, x = .error e ∧ w'.hub = w.hub) ∨ ∃ record r',
      op (w.hub.room ref) = .ok (record, r') ∧ x = .ok record ∧ w'.hub = w.hub.setRoom ref r' := by
  obtain ⟨y, w₁, h₁, hrest⟩ := ends_bind.mp h
  rcases change_ends h₁ with ⟨e, rfl, rfl⟩ | ⟨record, r', ho, rfl, rfl⟩
  · obtain ⟨rfl, rfl⟩ := ends_done.mp hrest
    exact .inl ⟨e, rfl, rfl⟩
  · obtain ⟨_, w₂, h₂, hdone⟩ := ends_bind.mp hrest
    obtain ⟨rfl, rfl⟩ := ends_done.mp hdone
    exact .inr ⟨record, r', ho, rfl, (ref.calm_writePlayer record).ends h₂⟩

theorem changeListing_ends {op : Room → Except RoomError Room} {x : Except RoomError Unit}
    (h : (ref.changeListing op).Ends w x w') :
    (∃ e, x = .error e ∧ w'.hub = w.hub) ∨ ∃ r',
      op (w.hub.room ref) = .ok r' ∧ x = .ok () ∧ w'.hub = w.hub.setRoom ref r' := by
  obtain ⟨y, w₁, h₁, hrest⟩ := ends_bind.mp h
  rcases change_ends h₁ with ⟨e, rfl, rfl⟩ | ⟨l, r', ho, rfl, rfl⟩
  · obtain ⟨rfl, rfl⟩ := ends_done.mp hrest
    exact .inl ⟨e, rfl, rfl⟩
  · obtain ⟨_, w₂, h₂, hdone⟩ := ends_bind.mp hrest
    obtain ⟨rfl, rfl⟩ := ends_done.mp hdone
    obtain ⟨r, hok, hr⟩ := Room.map_ok ho
    cases hr
    exact .inr ⟨r', hok, rfl, (ref.calm_writeListing _).ends h₂⟩

theorem changeAll_ends {op : Room → Except RoomError Room} {x : Except RoomError Unit}
    (h : (ref.changeAll op).Ends w x w') :
    (∃ e, x = .error e ∧ w'.hub = w.hub) ∨ ∃ r',
      op (w.hub.room ref) = .ok r' ∧ x = .ok () ∧ w'.hub = w.hub.setRoom ref r' := by
  obtain ⟨y, w₁, h₁, hrest⟩ := ends_bind.mp h
  rcases change_ends h₁ with ⟨e, rfl, rfl⟩ | ⟨_, r', ho, rfl, rfl⟩
  · obtain ⟨rfl, rfl⟩ := ends_done.mp hrest
    exact .inl ⟨e, rfl, rfl⟩
  · obtain ⟨_, w₂, h₂, hdone⟩ := ends_bind.mp hrest
    obtain ⟨rfl, rfl⟩ := ends_done.mp hdone
    obtain ⟨r, hok, hr⟩ := Room.map_ok ho
    cases hr
    exact .inr ⟨r', hok, rfl, ref.calm_publish.ends h₂⟩

theorem close_ends {caller : Option Int32} {x : Except RoomError (List Int32)}
    (h : (ref.close caller).Ends w x w') :
    (∃ e, x = .error e ∧ w'.hub = w.hub) ∨ ∃ members r',
      (w.hub.room ref).close caller = .ok (members, r') ∧ x = .ok members ∧
        w'.hub = w.hub.setRoom ref r' := by
  obtain ⟨y, w₁, h₁, hrest⟩ := ends_bind.mp h
  rcases change_ends h₁ with ⟨e, rfl, rfl⟩ | ⟨members, r', ho, rfl, rfl⟩
  · obtain ⟨rfl, rfl⟩ := ends_done.mp hrest
    exact .inl ⟨e, rfl, rfl⟩
  · obtain ⟨_, w₂, h₂, hdone⟩ := ends_bind.mp hrest
    obtain ⟨rfl, rfl⟩ := ends_done.mp hdone
    exact .inr ⟨members, r', ho, rfl, (calm_update _).ends h₂⟩

end RoomRef

/-! ## All rooms -/

namespace Hub

/-- notes on a user who was nowhere -/
def note (h : Hub) (user room : Int32) : Hub :=
  { h with memberships := h.memberships.insert user room }

theorem get?_note {h : Hub} {user room : Int32} (v : Int32) :
    (h.note user room).memberships.get? v =
      if user = v then some room else h.memberships.get? v := Table.get?_insert _ _ _ _

theorem reserve_cases (user room : Int32) (h : Hub) :
    Rooms.reserve user room h = (false, h) ∨
      (h.memberships.get? user = none ∧ Rooms.reserve user room h = (true, h.note user room)) := by
  unfold Rooms.reserve
  by_cases hc : h.memberships.contains user = true
  · exact .inl (if_pos hc)
  · refine .inr ⟨?_, if_neg hc⟩
    rwa [Table.contains, Option.isSome_iff_ne_none, Ne, Classical.not_not] at hc

end Hub

namespace Rooms

variable {w w' : World}

/-- A user leaves the room that it is noted to be in, if there is one.  A room that empties can no
longer be found. -/
theorem leave_ends {user : Int32} {x : Option (RoomRef × LeaveOutcome)}
    (h : (leave user).Ends w x w') :
    (x = none ∧ w'.hub = (vacate user w.hub).2 ∧
      ∀ room, w.hub.memberships.get? user = some room → w.hub.openRooms.get? room = none) ∨
    ∃ room ref outcome r', w.hub.memberships.get? user = some room ∧
      w.hub.openRooms.get? room = some ref ∧ (w.hub.room ref).leave user = (outcome, r') ∧
      x = some (ref, outcome) ∧
      w'.hub = (if outcome = .emptied then drop room ((vacate user w.hub).2.setRoom ref r')
        else (vacate user w.hub).2.setRoom ref r') := by
  obtain ⟨place, w₁, h₁, h⟩ := ends_bind.mp h
  obtain ⟨hplace, rfl⟩ := ends_transact.mp h₁
  replace hplace : w.hub.memberships.get? user = place := hplace.symm
  cases place with
  | none =>
    obtain ⟨rfl, rfl⟩ := ends_done.mp h
    refine .inl ⟨rfl, rfl, fun room hroom => ?_⟩
    rw [hplace] at hroom
    cases hroom
  | some room =>
    obtain ⟨found, w₂, h₂, h⟩ := ends_bind.mp h
    obtain ⟨hfound, rfl⟩ := ends_read.mp h₂
    replace hfound : w.hub.openRooms.get? room = found := hfound.symm
    cases found with
    | none =>
      obtain ⟨rfl, rfl⟩ := ends_done.mp h
      refine .inl ⟨rfl, rfl, fun room' hroom => ?_⟩
      rw [hplace] at hroom
      cases hroom
      exact hfound
    | some ref =>
      obtain ⟨outcome, w₃, h₃, h⟩ := ends_bind.mp h
      obtain ⟨r', hl, -⟩ := RoomRef.leave_ends h₃
      replace hl : (w.hub.room ref).leave user = (outcome, r') := hl
      have hleft : w₃.hub = (vacate user w.hub).2.setRoom ref r' := by
        rw [(ref.once_leave user).ends h₃]
        show (vacate user w.hub).2.setRoom ref ((w.hub.room ref).leave user).2 = _
        rw [hl]
      dsimp only at h
      split at h
      · rename_i hempty
        obtain ⟨_, w₄, h₄, h⟩ := ends_bind.mp h
        rw [ends_change] at h₄
        subst h₄
        obtain ⟨_, w₅, h₅, h⟩ := ends_bind.mp h
        obtain ⟨rfl, rfl⟩ := ends_done.mp h
        refine .inr ⟨room, ref, outcome, r', hplace, hfound, hl, rfl, ?_⟩
        rw [if_pos hempty, calm_gauge.ends h₅]
        exact congrArg (drop room) hleft
      · rename_i hstays
        obtain ⟨rfl, rfl⟩ := ends_done.mp h
        exact .inr ⟨room, ref, outcome, r', hplace, hfound, hl, rfl,
          hleft.trans (if_neg hstays).symm⟩

/-- the notes of some users are taken out -/
def releaseAll (users : List Int32) (room : Int32) (h : Hub) : Hub :=
  users.foldl (fun h user => release user room h) h

theorem releaseAll_ends {users : List Int32} {room : Int32} {x : Unit}
    (h : (each (fun user => Routine.change (release user room)) users).Ends w x w') :
    w'.hub = releaseAll users room w.hub := by
  induction users generalizing w with
  | nil => exact congrArg World.hub (ends_done.mp h).2
  | cons user users ih =>
    obtain ⟨_, w₁, h₁, h⟩ := ends_bind.mp h
    rw [ends_change] at h₁
    subst h₁
    exact ih h

theorem sameRooms_releaseAll (users : List Int32) (room : Int32) (h : Hub) :
    h.SameRooms (releaseAll users room h) ∧ (releaseAll users room h).directory = h.directory := by
  induction users generalizing h with
  | nil => exact ⟨⟨rfl, rfl, rfl⟩, rfl⟩
  | cons user users ih =>
    obtain ⟨hsame, hdirectory⟩ := ih (release user room h)
    have hone := sameRooms_release user room h
    refine ⟨⟨hsame.openRooms.trans hone.openRooms, hsame.rooms.trans hone.rooms,
      hsame.nextRoom.trans hone.nextRoom⟩, hdirectory.trans ?_⟩
    unfold release
    split <;> rfl

theorem remove_ends {room : Int32} {caller : Option Int32} {x : Except RoomError (List Int32)}
    (h : (remove room caller).Ends w x w') :
    (∃ e, x = .error e ∧ w'.hub = w.hub) ∨ ∃ ref members r',
      w.hub.openRooms.get? room = some ref ∧
      (w.hub.room ref).close caller = .ok (members, r') ∧ x = .ok members ∧
      w'.hub = releaseAll members room (drop room (w.hub.setRoom ref r')) := by
  obtain ⟨found, w₁, h₁, h⟩ := ends_bind.mp h
  obtain ⟨hfound, rfl⟩ := ends_read.mp h₁
  replace hfound : w₁.hub.openRooms.get? room = found := hfound.symm
  cases found with
  | none =>
    obtain ⟨rfl, rfl⟩ := ends_done.mp h
    exact .inl ⟨_, rfl, rfl⟩
  | some ref =>
    obtain ⟨closed, w₂, h₂, h⟩ := ends_bind.mp h
    rcases ref.close_ends h₂ with ⟨e, rfl, hsame⟩ | ⟨members, r', hclose, rfl, hroom⟩
    · obtain ⟨rfl, rfl⟩ := ends_done.mp h
      exact .inl ⟨e, rfl, hsame⟩
    · obtain ⟨_, w₃, h₃, h⟩ := ends_bind.mp h
      rw [ends_change] at h₃
      subst h₃
      obtain ⟨_, w₄, h₄, h⟩ := ends_bind.mp h
      obtain ⟨_, w₅, h₅, h⟩ := ends_bind.mp h
      obtain ⟨rfl, rfl⟩ := ends_done.mp h
      refine .inr ⟨ref, members, r', hfound, hclose, rfl, ?_⟩
      rw [calm_gauge.ends h₅, releaseAll_ends h₄, hroom]

theorem join_ends {room : Int32} {profile : PlayerProfile} {guess : Option String}
    {x : Except RoomError RoomRef} (h : (join room profile guess).Ends w x w') :
    (∃ e, x = .error e ∧ (w'.hub = w.hub ∨ w.hub.memberships.get? profile.userId = none ∧
      w'.hub = release profile.userId room (w.hub.note profile.userId room))) ∨
    ∃ ref record r', w.hub.openRooms.get? room = some ref ∧
      w.hub.memberships.get? profile.userId = none ∧
      (w.hub.room ref).join profile guess = .ok (record, r') ∧ x = .ok ref ∧
      w'.hub = (w.hub.note profile.userId room).setRoom ref r' := by
  obtain ⟨found, w₁, h₁, h⟩ := ends_bind.mp h
  obtain ⟨hfound, rfl⟩ := ends_read.mp h₁
  replace hfound : w₁.hub.openRooms.get? room = found := hfound.symm
  cases found with
  | none =>
    obtain ⟨rfl, rfl⟩ := ends_done.mp h
    exact .inl ⟨_, rfl, .inl rfl⟩
  | some ref =>
    obtain ⟨free, w₂, h₂, h⟩ := ends_bind.mp h
    obtain ⟨hfree, rfl⟩ := ends_transact.mp h₂
    rcases Hub.reserve_cases profile.userId room w₁.hub with hr | ⟨hnew, hr⟩
    · rw [hr] at hfree h
      subst hfree
      obtain ⟨rfl, rfl⟩ := ends_done.mp h
      exact .inl ⟨_, rfl, .inl rfl⟩
    · rw [hr] at hfree h
      subst hfree
      obtain ⟨joined, w₃, h₃, h⟩ := ends_bind.mp h
      obtain ⟨record, w₄, h₄, hdone⟩ := ends_bind.mp h₃
      obtain ⟨rfl, rfl⟩ := ends_done.mp hdone
      rcases ref.changePlayer_ends h₄ with ⟨e, rfl, hsame⟩ | ⟨record, r', hjoin, rfl, hroom⟩
      · obtain ⟨_, w₅, h₅, h⟩ := ends_bind.mp h
        rw [ends_change] at h₅
        subst h₅
        obtain ⟨rfl, rfl⟩ := ends_done.mp h
        exact .inl ⟨e, rfl, .inr ⟨hnew, congrArg (release profile.userId room) hsame⟩⟩
      · obtain ⟨rfl, rfl⟩ := ends_done.mp h
        exact .inr ⟨ref, record, r', hfound, hnew, hjoin, rfl, hroom⟩

theorem create_ends {request : RoomRequest} {host : PlayerProfile} {x : Except RoomError RoomRef}
    (h : (create request host).Ends w x w') :
    (∃ e, x = .error e ∧ (w'.hub = w.hub ∨ w'.hub = (takeId w.hub).2)) ∨
    ∃ r, r.ids = [host.userId] ∧ r.id = (takeId w.hub).1 ∧
      w.hub.memberships.get? host.userId = none ∧
      x = .ok (enter r ((takeId w.hub).2.note host.userId r.id)).1 ∧
      w'.hub = (enter r ((takeId w.hub).2.note host.userId r.id)).2 := by
  unfold create at h
  split at h
  · obtain ⟨rfl, rfl⟩ := ends_done.mp h
    exact .inl ⟨_, rfl, .inl rfl⟩
  obtain ⟨id, w₁, h₁, h⟩ := ends_bind.mp h
  obtain ⟨rfl, rfl⟩ := ends_transact.mp h₁
  obtain ⟨free, w₂, h₂, h⟩ := ends_bind.mp h
  obtain ⟨hfree, rfl⟩ := ends_transact.mp h₂
  rcases Hub.reserve_cases host.userId (takeId w.hub).1 (takeId w.hub).2 with hr | ⟨hnew, hr⟩
  · rw [hr] at hfree h
    subst hfree
    obtain ⟨rfl, rfl⟩ := ends_done.mp h
    exact .inl ⟨_, rfl, .inr rfl⟩
  · rw [hr] at hfree h
    subst hfree
    obtain ⟨ref, w₃, h₃, h⟩ := ends_bind.mp h
    obtain ⟨rfl, rfl⟩ := ends_transact.mp h₃
    obtain ⟨_, w₄, h₄, h⟩ := ends_bind.mp h
    obtain ⟨_, w₅, h₅, h⟩ := ends_bind.mp h
    obtain ⟨rfl, rfl⟩ := ends_done.mp h
    exact .inr ⟨_, rfl, rfl, hnew, rfl,
      ((RoomRef.calm_publish _).ends h₅).trans (calm_gauge.ends h₄)⟩

end Rooms
end RhythmLobby
