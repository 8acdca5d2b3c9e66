import RhythmLobby.Proofs.Hub.Footprint
import RhythmLobby.Task.Dispatch

/-!
# What room tasks leave alone

Whatever is done with rooms, sessions stay as they are, in memory and in the cache.

* `Update.OfRoom`              the updates of records of rooms;
* `Routine.RoomsOnly`          a task that changes rooms and who is where, and nothing else;
* `Rooms.roomsOnly_leave` to `Rooms.roomsOnly_create`   rooms are left, closed, entered and opened;
* `roomsOnly_leaveCurrent`     a user leaves its room, and the others are told.
-/

namespace RhythmLobby
open Cache

/-- an update of the records of a room -/
inductive Cache.Update.OfRoom : Update → Prop
  | listing (room : Int32) (l : Listing) : OfRoom (.listing room l)
  | player (room : Int32) (p : PlayerRecord) : OfRoom (.player room p)
  | noPlayer (room user : Int32) : OfRoom (.noPlayer room user)
  | noRoom (room : Int32) (members : List Int32) : OfRoom (.noRoom room members)

/-- the key belongs to a room -/
def Cache.Key.OfRoom : Key → Prop
  | .room _ => True
  | .player _ _ => True
  | _ => False

/-- the key is that of no record of a room -/
def Cache.OutsideRooms (key : String) : Prop := ∀ k : Key, k.OfRoom → key ≠ k.text

theorem Cache.outsideRooms_text {k : Key} (hk : ¬ k.OfRoom) : OutsideRooms k.text := by
  intro l hl h
  rw [Key.text_inj] at h
  exact hk (h ▸ hl)

theorem Cache.Update.OfRoom.leaves {u : Update} (hu : u.OfRoom) {key : String}
    (hk : OutsideRooms key) (r : Option Record) : u.call.leaves key r = r := by
  have hroom : ∀ room, key ≠ (Key.room room).text := fun room => hk (.room room) trivial
  have hplayer : ∀ room user, key ≠ (Key.player room user).text :=
    fun room user => hk (.player room user) trivial
  cases hu with
  | listing room l => exact if_neg (hroom room).symm
  | player room p => exact if_neg (hplayer room _).symm
  | noPlayer room user =>
    refine if_neg fun h => ?_
    exact hplayer room user (List.mem_singleton.mp h)
  | noRoom room members =>
    refine if_neg fun h => ?_
    rcases List.mem_cons.mp h with h | h
    · exact hroom room h
    · obtain ⟨user, -, h⟩ := List.mem_map.mp h
      exact hplayer room user h.symm

namespace Routine

/-- sessions stay as they are -/
def SameSessions (h h' : Hub) : Prop := h'.directory = h.directory ∧ h'.sessions = h.sessions

/-- every update is one of a room -/
def RoomUpdates (e : Effect) : Prop := ∀ u, e = .update u → u.OfRoom

/-- the task changes rooms and who is where, and nothing else -/
def RoomsOnly {α : Type} (r : Routine α) : Prop := r.Within SameSessions RoomUpdates

variable {α β γ : Type}

theorem RoomUpdates.leaves {e : Effect} (he : RoomUpdates e) {key : String}
    (hk : OutsideRooms key) (r : Option Record) : e.leaves key r = r := by
  cases hc : e.call? with
  | none => exact e.leaves_of_call?_eq_none hc _ r
  | some c =>
    cases e with
    | update u => exact (he u rfl).leaves hk r
    | _ => cases hc

theorem roomsOnly_done (x : α) : (done x).RoomsOnly := trivial

theorem RoomsOnly.bind {r : Routine α} {f : α → Routine β} (hr : r.RoomsOnly)
    (hf : ∀ x, (f x).RoomsOnly) : (r.bind f).RoomsOnly := within_bind hr hf

theorem roomsOnly_read (f : Hub → α) : (read f).RoomsOnly := within_read f fun _ => ⟨rfl, rfl⟩

theorem roomsOnly_update {u : Update} (hu : u.OfRoom) : (update u).RoomsOnly := by
  refine within_update fun u' h => ?_
  cases h
  exact hu

theorem roomsOnly_emit {e : Effect} (he : ∀ u, e ≠ .update u) : (emit e).RoomsOnly :=
  within_emit fun u h => absurd h (he u)

theorem roomsOnly_each {f : α → Routine Unit} (hf : ∀ x, (f x).RoomsOnly) (xs : List α) :
    (each f xs).RoomsOnly := within_each fun x _ => hf x

/-- sessions stay as they are, and so do all other records than those of rooms -/
theorem RoomsOnly.ends {r : Routine α} (hr : r.RoomsOnly) {w w' : World} {x : α}
    (h : r.Ends w x w') (hw : w.Reliable) :
    SameSessions w.hub w'.hub ∧ w'.Reliable ∧
      ∀ key, OutsideRooms key → w'.record key = w.record key := by
  refine Within.induction (P := fun v => SameSessions w.hub v.hub ∧ v.Reliable ∧
    ∀ key, OutsideRooms key → v.record key = w.record key) hr ?_ ?_ h
    ⟨⟨rfl, rfl⟩, hw, fun _ _ => rfl⟩
  · intro v h hv hm
    obtain ⟨hsame, hv⟩ := hv
    exact ⟨⟨hm.1.trans hsame.1, hm.2.trans hsame.2⟩, hv⟩
  · intro v e hv he
    obtain ⟨hsame, hv, hrecord⟩ := hv
    rw [Effect.perform_hub]
    refine ⟨hsame, World.reliable_perform hv e, fun key hk => ?_⟩
    rw [World.record_perform hv, ← hrecord key hk]
    exact he.leaves hk _

end Routine

open Routine

/-! ## Records -/

namespace RoomRef

variable {β : Type} (ref : RoomRef)

theorem roomsOnly_settleListing (written : Option Listing) :
    (ref.settleListing written).RoomsOnly := by
  refine within_settling _ fun found h => ?_
  unfold listingTurn
  dsimp only
  split
  · exact trivial
  · split
    · intro u hu
      cases hu
      exact .listing _ _
    · intro u hu
      cases hu
      exact .noRoom _ _

theorem roomsOnly_settlePlayer (user : Int32) (written : Option PlayerRecord) :
    (ref.settlePlayer user written).RoomsOnly := by
  refine within_settling _ fun found h => ?_
  unfold playerTurn
  dsimp only
  split
  · exact trivial
  · split
    · intro u hu
      cases hu
      exact .player _ _
    · intro u hu
      cases hu
      exact .noPlayer _ _

theorem roomsOnly_writeListing (l : Listing) : (ref.writeListing l).RoomsOnly :=
  (roomsOnly_update (.listing _ _)).bind fun _ => ref.roomsOnly_settleListing _

theorem roomsOnly_writePlayer (r : PlayerRecord) : (ref.writePlayer r).RoomsOnly :=
  (roomsOnly_update (.player _ _)).bind fun _ => ref.roomsOnly_settlePlayer _ _

theorem roomsOnly_publish : ref.publish.RoomsOnly :=
  (roomsOnly_read _).bind fun _ => (ref.roomsOnly_writeListing _).bind fun _ =>
    roomsOnly_each ref.roomsOnly_writePlayer _

/-! ## Changes of a room -/

theorem roomsOnly_change (op : Room → Except RoomError (β × Room)) :
    (ref.change op).RoomsOnly := by
  refine within_transact fun h => ?_
  cases op (h.room ref) with
  | error e => exact ⟨rfl, rfl⟩
  | ok p => exact ⟨rfl, rfl⟩

theorem roomsOnly_changePlayer (op : Room → Except RoomError (PlayerRecord × Room)) :
    (ref.changePlayer op).RoomsOnly := by
  refine (ref.roomsOnly_change op).bind fun changed => ?_
  cases changed with
  | error e => exact roomsOnly_done _
  | ok record => exact (ref.roomsOnly_writePlayer record).bind fun _ => roomsOnly_done _

theorem roomsOnly_join (profile : PlayerProfile) (guess : Option String) :
    (ref.join profile guess).RoomsOnly :=
  RoomsOnly.bind (ref.roomsOnly_changePlayer _) fun _ => roomsOnly_done _

theorem roomsOnly_changeListing (op : Room → Except RoomError Room) :
    (ref.changeListing op).RoomsOnly := by
  refine RoomsOnly.bind (ref.roomsOnly_change _) fun changed => ?_
  cases changed with
  | error e => exact roomsOnly_done _
  | ok l => exact (ref.roomsOnly_writeListing l).bind fun _ => roomsOnly_done _

theorem roomsOnly_changeAll (op : Room → Except RoomError Room) :
    (ref.changeAll op).RoomsOnly := by
  refine RoomsOnly.bind (ref.roomsOnly_change _) fun changed => ?_
  cases changed with
  | error e => exact roomsOnly_done _
  | ok _ => exact ref.roomsOnly_publish.bind fun _ => roomsOnly_done _

theorem roomsOnly_leave (user : Int32) : (ref.leave user).RoomsOnly := by
  refine RoomsOnly.bind (within_transact fun _ => ⟨rfl, rfl⟩) fun left => ?_
  obtain ⟨outcome, l⟩ := left
  cases outcome with
  | notMember => exact roomsOnly_done _
  | emptied => exact (roomsOnly_update (.noRoom _ _)).bind fun _ => roomsOnly_done _
  | left =>
    refine (roomsOnly_update (.noPlayer _ _)).bind fun _ => ?_
    exact (ref.roomsOnly_settlePlayer _ _).bind fun _ => roomsOnly_done _
  | hostPassed host =>
    refine (roomsOnly_update (.noPlayer _ _)).bind fun _ => ?_
    refine (ref.roomsOnly_settlePlayer _ _).bind fun _ => ?_
    exact (ref.roomsOnly_writeListing l).bind fun _ => roomsOnly_done _

theorem roomsOnly_close (caller : Option Int32) : (ref.close caller).RoomsOnly := by
  refine RoomsOnly.bind (ref.roomsOnly_change _) fun closed => ?_
  cases closed with
  | error e => exact roomsOnly_done _
  | ok members => exact (roomsOnly_update (.noRoom _ _)).bind fun _ => roomsOnly_done _

end RoomRef

/-! ## Who is in which room -/

namespace Rooms

theorem roomsOnly_gauge : gauge.RoomsOnly :=
  (roomsOnly_read _).bind fun _ => roomsOnly_emit nofun

theorem roomsOnly_change {f : Hub → Hub} (hf : ∀ h, SameSessions h (f h)) :
    (Routine.change f).RoomsOnly := within_change hf

theorem sameSessions_release (user room : Int32) (h : Hub) :
    SameSessions h (release user room h) := by
  unfold release
  split
  · exact ⟨rfl, rfl⟩
  · exact ⟨rfl, rfl⟩

theorem roomsOnly_leave (user : Int32) : (leave user).RoomsOnly := by
  refine RoomsOnly.bind (within_transact fun _ => ⟨rfl, rfl⟩) fun place => ?_
  cases place with
  | none => exact roomsOnly_done _
  | some room =>
    refine RoomsOnly.bind (roomsOnly_read _) fun found => ?_
    cases found with
    | none => exact roomsOnly_done _
    | some ref =>
      refine RoomsOnly.bind (ref.roomsOnly_leave user) fun outcome => ?_
      dsimp only
      split
      · exact (roomsOnly_change fun _ => ⟨rfl, rfl⟩).bind fun _ =>
          roomsOnly_gauge.bind fun _ => roomsOnly_done _
      · exact roomsOnly_done _

theorem roomsOnly_remove (room : Int32) (caller : Option Int32) :
    (remove room caller).RoomsOnly := by
  have hrelease : ∀ user, (Routine.change (release user room)).RoomsOnly :=
    fun user => roomsOnly_change (sameSessions_release user room)
  refine RoomsOnly.bind (roomsOnly_read _) fun found => ?_
  cases found with
  | none => exact roomsOnly_done _
  | some ref =>
    refine RoomsOnly.bind (ref.roomsOnly_close caller) fun closed => ?_
    cases closed with
    | error e => exact roomsOnly_done _
    | ok members =>
      refine (roomsOnly_change fun _ => ⟨rfl, rfl⟩).bind fun _ => ?_
      refine RoomsOnly.bind (roomsOnly_each hrelease members) fun _ => ?_
      exact roomsOnly_gauge.bind fun _ => roomsOnly_done _

theorem sameSessions_reserve (user room : Int32) (h : Hub) :
    SameSessions h (reserve user room h).2 := by
  unfold reserve
  split
  · exact ⟨rfl, rfl⟩
  · exact ⟨rfl, rfl⟩

theorem roomsOnly_join (room : Int32) (profile : PlayerProfile) (guess : Option String) :
    (join room profile guess).RoomsOnly := by
  have hreserve : (Routine.transact (reserve profile.userId room)).RoomsOnly :=
    within_transact (sameSessions_reserve profile.userId room)
  have hrelease := roomsOnly_change (sameSessions_release profile.userId room)
  refine RoomsOnly.bind (roomsOnly_read _) fun found => ?_
  cases found with
  | none => exact roomsOnly_done _
  | some ref =>
    refine RoomsOnly.bind hreserve fun ok => ?_
    split
    · exact roomsOnly_done _
    refine RoomsOnly.bind (ref.roomsOnly_join profile guess) fun joined => ?_
    cases joined with
    | error e => exact hrelease.bind fun _ => roomsOnly_done _
    | ok _ => exact roomsOnly_done _

theorem roomsOnly_create (request : RoomRequest) (host : PlayerProfile) :
    (create request host).RoomsOnly := by
  unfold create
  split
  · exact roomsOnly_done _
  refine RoomsOnly.bind (within_transact fun _ => ⟨rfl, rfl⟩) fun id => ?_
  refine RoomsOnly.bind (within_transact (sameSessions_reserve host.userId id)) fun ok => ?_
  split
  · exact roomsOnly_done _
  · refine RoomsOnly.bind (within_transact fun _ => ⟨rfl, rfl⟩) fun ref => ?_
    exact roomsOnly_gauge.bind fun _ => ref.roomsOnly_publish.bind fun _ => roomsOnly_done _

end Rooms

/-! ## News -/

namespace RoomNews

theorem roomsOnly_notify (users : List Int32) (p : ServerPacket) : (notify users p).RoomsOnly :=
  (roomsOnly_read _).bind fun _ => roomsOnly_emit nofun

theorem roomsOnly_sendUpdate (ref : RoomRef) : (sendUpdate ref).RoomsOnly :=
  (roomsOnly_read _).bind fun _ => (roomsOnly_read _).bind fun _ => roomsOnly_notify _ _

theorem roomsOnly_leaveCurrent (user : Int32) : (leaveCurrent user).RoomsOnly := by
  refine RoomsOnly.bind (Rooms.roomsOnly_leave user) fun left => ?_
  rcases left with _ | ⟨ref, outcome⟩
  · exact roomsOnly_done _
  cases outcome with
  | notMember => exact roomsOnly_done _
  | emptied => exact roomsOnly_done _
  | left =>
    refine (roomsOnly_read _).bind fun _ => ?_
    exact (roomsOnly_notify _ _).bind fun _ => roomsOnly_done _
  | hostPassed host =>
    refine (roomsOnly_read _).bind fun _ => ?_
    refine (roomsOnly_notify _ _).bind fun _ => ?_
    exact (roomsOnly_sendUpdate ref).bind fun _ => roomsOnly_done _

end RoomNews

end RhythmLobby
