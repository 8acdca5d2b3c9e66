import RhythmLobby.Proofs.Hub.Halting
import RhythmLobby.Proofs.Room.Slots
import RhythmLobby.Task.RoomNews

/-!
# Tasks on rooms come to an end

A settling loop compares difficulties as numbers, and a NaN is not even equal to itself.  As long
as the difficulties of all maps are numbers, every task on a room comes to an end.

* `MapInfo.Rated`, `Room.Rated`, `Hub.Rated`   difficulties are numbers;
* `RoomRef.halts_settleListing`                a listing that agrees with itself settles;
* `Rooms.halts_create` to `Rooms.halts_join`   the tasks that packets of clients lead to.
-/

namespace RhythmLobby
open Routine

/-! ## Difficulties -/

/-- the difficulty of a map is a number -/
def MapInfo.Rated (map : MapInfo) : Prop := map.difficulty.isNaN = false

def Room.Rated (r : Room) : Prop := r.settings.map.Rated

def Hub.Rated (h : Hub) : Prop := ∀ r ∈ h.rooms, r.Rated

theorem Listing.agrees_refl {l : Listing} (h : l.settings.map.Rated) : l.agrees l = true := by
  have hnumber : l.settings.map.difficulty.eqv l.settings.map.difficulty = true :=
    Binary64.eqv_refl h
  simp [agrees, RoomSettings.agrees, hnumber]

namespace Hub.Rated

variable {h h' : Hub}

theorem room (hr : h.Rated) (ref : RoomRef) : (h.room ref).Rated := by
  unfold Hub.room
  cases ho : h.rooms[ref.key]? with
  | none =>
    show Binary64.isNaN .zero = false
    decide
  | some r => exact hr r (List.mem_of_getElem? ho)

theorem setRoom (hr : h.Rated) (ref : RoomRef) {r : Room} (hnew : r.Rated) :
    (h.setRoom ref r).Rated := by
  intro r' hr'
  rcases List.mem_or_eq_of_mem_set hr' with hold | rfl
  · exact hr r' hold
  · exact hnew

theorem addRoom (hr : h.Rated) {r : Room} (hnew : r.Rated) : (h.addRoom r).2.Rated := by
  intro r' hr'
  rcases List.mem_append.mp hr' with hold | hlast
  · exact hr r' hold
  · rw [List.mem_singleton.mp hlast]
    exact hnew

theorem of_rooms (hr : h.Rated) (hrooms : h'.rooms = h.rooms) : h'.Rated := by
  intro r hmem
  rw [hrooms] at hmem
  exact hr r hmem

end Hub.Rated

namespace Room

variable {r r' : Room}

theorem PlayerChange.rated {user : Int32} {record : PlayerRecord}
    (h : r.PlayerChange user record r') (hr : r.Rated) : r'.Rated := by
  have hsettings : r'.settings = r.settings := congrArg Listing.settings h.listing
  rw [Rated, hsettings]
  exact hr

theorem ListingChange.rated (h : r.ListingChange r') (hr : r.Rated) : r'.Rated := by
  rw [Rated, h.map]
  exact hr

theorem changeMap_rated {caller : Int32} {map : MapInfo} (hmap : map.Rated)
    (h : r.changeMap caller map = .ok r') : r'.Rated := by
  unfold changeMap at h
  obtain ⟨_, _, h⟩ := bind_ok h
  obtain ⟨_, _, h⟩ := bind_ok h
  cases h
  exact hmap

theorem finish_rated {caller : Int32} (h : r.finish caller = .ok r') (hr : r.Rated) :
    r'.Rated := by
  unfold finish at h
  obtain ⟨_, _, h⟩ := bind_ok h
  by_cases hp : (!r.settings.inProgress) = true
  · simp only [hp] at h
    cases h
  · simp only [hp] at h
    cases h
    exact hr

theorem leave_rated (hr : r.Rated) (user : Int32) : (r.leave user).2.Rated := by
  rcases leave_cases r user with h | ⟨-, -, ⟨-, h⟩ | ⟨-, h | ⟨host, h⟩⟩⟩
  all_goals
    rw [h]
    exact hr

end Room

/-- what may be said of memory may be said again after a room has been closed -/
structure Hub.KeptByClosing (P : Hub → Prop) : Prop where
  rooms : ∀ {h h' : Hub}, h'.rooms = h.rooms → P h → P h'
  close : ∀ {h : Hub} {ref : RoomRef} {caller members r'},
    (h.room ref).close caller = .ok (members, r') → P h → P (h.setRoom ref r')

theorem Hub.Rated.keptByClosing : Hub.KeptByClosing Hub.Rated where
  rooms hrooms hr := hr.of_rooms hrooms
  close {h ref caller members r'} hclose hr := by
    obtain ⟨-, -, rfl⟩ := Room.close_ok hclose
    exact hr.setRoom ref (hr.room ref)

/-! ## Records -/

namespace RoomRef

variable {α β : Type} (ref : RoomRef)

theorem sameListing_refl {r : Room} (hr : r.Rated) :
    sameListing r.liveListing r.liveListing = true := by
  unfold Room.liveListing
  split
  · rfl
  · exact Listing.agrees_refl hr

theorem listingTurn_once (found : Option Listing) {h : Hub} (hr : (h.room ref).Rated) :
    (∃ c, ref.listingTurn found h = .stop c) ∨ ∃ u found' c,
      ref.listingTurn found h = .update u found' ∧ ref.listingTurn found' h = .stop c := by
  rcases listingTurn_cases ref found h with ⟨hstop, -⟩ | ⟨u, hupdate, -⟩
  · exact .inl ⟨(), hstop⟩
  · exact .inr ⟨u, _, (), hupdate, if_pos (sameListing_refl hr)⟩

theorem playerTurn_once (user : Int32) (found : Option PlayerRecord) (h : Hub) :
    (∃ c, ref.playerTurn user found h = .stop c) ∨ ∃ u found' c,
      ref.playerTurn user found h = .update u found' ∧ ref.playerTurn user found' h = .stop c := by
  rcases playerTurn_cases ref user found h with ⟨hstop, -⟩ | ⟨u, hupdate, -⟩
  · exact .inl ⟨(), hstop⟩
  · exact .inr ⟨u, _, (), hupdate, if_pos rfl⟩

theorem halts_settleListing (written : Option Listing) :
    (ref.settleListing written).Halts Hub.Rated := by
  refine halts_settling (fun found m hm => ?_) written
  exact ref.listingTurn_once found (hm.room ref)

theorem halts_settlePlayer {P : Hub → Prop} (user : Int32) (written : Option PlayerRecord) :
    (ref.settlePlayer user written).Halts P :=
  halts_settling (fun found m _ => ref.playerTurn_once user found m) written

theorem halts_writeListing (l : Listing) : (ref.writeListing l).Halts Hub.Rated :=
  halts_bind (halts_update _) fun _ => ref.halts_settleListing _

theorem halts_writePlayer {P : Hub → Prop} (record : PlayerRecord) :
    (ref.writePlayer record).Halts P :=
  halts_bind (halts_update _) fun _ => ref.halts_settlePlayer _ _

theorem halts_publish : ref.publish.Halts Hub.Rated := by
  refine halts_bind (halts_read _) fun _ => ?_
  exact halts_bind (ref.halts_writeListing _) fun _ => halts_each ref.halts_writePlayer _

/-! ## Changes of a room -/

/-- an operation that a room of a rated map may be asked for -/
def KeepsRated (op : Room → Except RoomError (β × Room)) : Prop :=
  ∀ r x r', op r = .ok (x, r') → r.Rated → r'.Rated

theorem halts_change_of {P : Hub → Prop} {op : Room → Except RoomError (β × Room)}
    (hop : ∀ m x r', op (m.room ref) = .ok (x, r') → P m → P (m.setRoom ref r')) :
    (ref.change op).Halts P := by
  refine halts_transact fun m hm => ?_
  cases ho : op (m.room ref) with
  | error e => exact hm
  | ok p => exact hop m p.1 p.2 ho hm

theorem halts_change {op : Room → Except RoomError (β × Room)} (hop : KeepsRated op) :
    (ref.change op).Halts Hub.Rated :=
  ref.halts_change_of fun _ x r' ho hm => hm.setRoom ref (hop _ x r' ho (hm.room ref))

theorem halts_changePlayer {op : Room → Except RoomError (PlayerRecord × Room)} {user : Int32}
    (hop : ∀ r record r', op r = .ok (record, r') → r.PlayerChange user record r') :
    (ref.changePlayer op).Halts Hub.Rated := by
  have hrated : KeepsRated op := fun r record r' ho => (hop r record r' ho).rated
  refine halts_bind (ref.halts_change hrated) fun x => ?_
  cases x with
  | error e => exact halts_done _
  | ok record => exact halts_bind (ref.halts_writePlayer record) fun _ => halts_done _

theorem keepsRated_map {op : Room → Except RoomError Room} {f : Room → β}
    (hop : ∀ r r', op r = .ok r' → r.Rated → r'.Rated) :
    KeepsRated fun r => (op r).map fun r => (f r, r) := by
  intro r x r' hx hr
  obtain ⟨r'', ho, heq⟩ := Room.map_ok hx
  cases heq
  exact hop r r' ho hr

theorem halts_changeListing {op : Room → Except RoomError Room}
    (hop : ∀ r r', op r = .ok r' → r.ListingChange r') :
    (ref.changeListing op).Halts Hub.Rated := by
  have hrated : ∀ r r', op r = .ok r' → r.Rated → r'.Rated := fun r r' ho => (hop r r' ho).rated
  refine halts_bind (ref.halts_change (keepsRated_map hrated)) fun x => ?_
  cases x with
  | error e => exact halts_done _
  | ok l => exact halts_bind (ref.halts_writeListing l) fun _ => halts_done _

theorem halts_changeAll {op : Room → Except RoomError Room}
    (hop : ∀ r r', op r = .ok r' → r.Rated → r'.Rated) :
    (ref.changeAll op).Halts Hub.Rated := by
  refine halts_bind (ref.halts_change (keepsRated_map hop)) fun x => ?_
  cases x with
  | error e => exact halts_done _
  | ok _ => exact halts_bind ref.halts_publish fun _ => halts_done _

theorem halts_leave (user : Int32) : (ref.leave user).Halts Hub.Rated := by
  refine halts_bind (halts_transact fun m hm => ?_) fun p => ?_
  · exact hm.setRoom ref (Room.leave_rated (hm.room ref) user)
  obtain ⟨outcome, l⟩ := p
  cases outcome with
  | notMember => exact halts_done _
  | emptied => exact halts_bind (halts_update _) fun _ => halts_done _
  | left =>
    refine halts_bind (halts_update _) fun _ => ?_
    exact halts_bind (ref.halts_settlePlayer _ _) fun _ => halts_done _
  | hostPassed host =>
    refine halts_bind (halts_update _) fun _ => ?_
    refine halts_bind (ref.halts_settlePlayer _ _) fun _ => ?_
    exact halts_bind (ref.halts_writeListing l) fun _ => halts_done _

theorem halts_close {P : Hub → Prop} (hP : Hub.KeptByClosing P) (caller : Option Int32) :
    (ref.close caller).Halts P := by
  refine halts_bind (ref.halts_change_of fun _ _ _ hclose hm => hP.close hclose hm) fun x => ?_
  cases x with
  | error e => exact halts_done _
  | ok members => exact halts_bind (halts_update _) fun _ => halts_done _

end RoomRef

/-! ## Who is in which room -/

namespace Rooms

variable {P : Hub → Prop}

theorem halts_gauge : gauge.Halts P := halts_bind (halts_read _) fun _ => halts_emit _

theorem rated_reserve {m : Hub} (hm : m.Rated) (user room : Int32) :
    (reserve user room m).2.Rated := by
  unfold reserve
  split
  · exact hm
  · exact hm.of_rooms rfl

theorem rooms_release (user room : Int32) (m : Hub) : (release user room m).rooms = m.rooms := by
  unfold release
  split <;> rfl

theorem halts_create (request : RoomRequest) (host : PlayerProfile) (hmap : request.map.Rated) :
    (create request host).Halts Hub.Rated := by
  unfold create
  split
  · exact halts_done _
  refine halts_bind (halts_transact fun _ hm => hm.of_rooms rfl) fun id => ?_
  refine halts_bind (halts_transact fun _ hm => rated_reserve hm host.userId id) fun ok => ?_
  split
  · exact halts_done _
  · have hroom : (Room.create id (.fresh request.name request.maxPlayers request.map host.userId)
        request.password host).Rated := hmap
    refine halts_bind (halts_transact fun _ hm => (hm.addRoom hroom).of_rooms rfl) fun ref => ?_
    refine halts_bind halts_gauge fun _ => ?_
    exact halts_bind ref.halts_publish fun _ => halts_done _

theorem halts_join (room : Int32) (profile : PlayerProfile) (guess : Option String) :
    (join room profile guess).Halts Hub.Rated := by
  refine halts_bind (halts_read _) fun found => ?_
  cases found with
  | none => exact halts_done _
  | some ref =>
    refine halts_bind (halts_transact fun _ hm => rated_reserve hm profile.userId room)
      fun ok => ?_
    split
    · exact halts_done _
    have hjoin : (ref.join profile guess).Halts Hub.Rated :=
      halts_bind (ref.halts_changePlayer fun _ _ _ => Room.join_ok) fun _ => halts_done _
    refine halts_bind hjoin fun joined => ?_
    cases joined with
    | error e =>
      exact halts_bind (Routine.halts_change fun m hm =>
        hm.of_rooms (rooms_release profile.userId room m))
        fun _ => halts_done _
    | ok _ => exact halts_done _

theorem halts_leave (user : Int32) : (leave user).Halts Hub.Rated := by
  refine halts_bind (halts_transact fun _ hm => hm.of_rooms rfl) fun place => ?_
  cases place with
  | none => exact halts_done _
  | some room =>
    refine halts_bind (halts_read _) fun found => ?_
    cases found with
    | none => exact halts_done _
    | some ref =>
      refine halts_bind (ref.halts_leave user) fun outcome => ?_
      dsimp only
      split
      · refine halts_bind (Routine.halts_change fun _ hm => hm.of_rooms rfl) fun _ => ?_
        exact halts_bind halts_gauge fun _ => halts_done _
      · exact halts_done _

theorem halts_remove (hP : Hub.KeptByClosing P) (room : Int32) (caller : Option Int32) :
    (remove room caller).Halts P := by
  refine halts_bind (halts_read _) fun found => ?_
  cases found with
  | none => exact halts_done _
  | some ref =>
    refine halts_bind (ref.halts_close hP caller) fun x => ?_
    cases x with
    | error e => exact halts_done _
    | ok members =>
      refine halts_bind (Routine.halts_change fun m hm => hP.rooms (h := m) rfl hm) fun _ => ?_
      refine halts_bind (halts_each (fun user => ?_) members) fun _ => ?_
      · exact Routine.halts_change fun m hm => hP.rooms (rooms_release user room m) hm
      · exact halts_bind halts_gauge fun _ => halts_done _

theorem halts_roomOf (user : Int32) : (roomOf user).Halts P := by
  refine halts_bind (halts_read _) fun place => ?_
  cases place with
  | none => exact halts_done _
  | some room => exact halts_read _

end Rooms

/-! ## News -/

namespace RoomNews

theorem halts_notify {P : Hub → Prop} (users : List Int32) (p : ServerPacket) :
    (notify users p).Halts P := halts_bind (halts_read _) fun _ => halts_emit _

theorem halts_sendUpdate {P : Hub → Prop} (ref : RoomRef) : (sendUpdate ref).Halts P := by
  refine halts_bind (halts_read _) fun _ => ?_
  refine halts_bind (halts_read _) fun _ => ?_
  exact halts_bind (halts_notify _ _) fun _ => halts_done _

theorem halts_leaveCurrent (user : Int32) : (leaveCurrent user).Halts Hub.Rated := by
  refine halts_bind (Rooms.halts_leave user) fun left => ?_
  rcases left with _ | ⟨ref, outcome⟩
  · exact halts_done _
  cases outcome with
  | notMember => exact halts_done _
  | emptied => exact halts_done _
  | left =>
    refine halts_bind (halts_read _) fun _ => ?_
    exact halts_bind (halts_notify _ _) fun _ => halts_done _
  | hostPassed host =>
    refine halts_bind (halts_read _) fun _ => ?_
    refine halts_bind (halts_notify _ _) fun _ => ?_
    exact halts_bind (halts_sendUpdate ref) fun _ => halts_done _

theorem halts_closeAll {P : Hub → Prop} (hP : Hub.KeptByClosing P) : closeAll.Halts P := by
  refine halts_bind (halts_read _) fun refs => halts_each (fun ref => ?_) refs
  refine halts_bind (Rooms.halts_remove hP ref.id none) fun x => ?_
  cases x with
  | error e => exact halts_done _
  | ok members => exact halts_bind (halts_notify _ _) fun _ => halts_done _

end RoomNews
end RhythmLobby
