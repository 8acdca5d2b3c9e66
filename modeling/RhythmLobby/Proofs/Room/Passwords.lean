import RhythmLobby.Proofs.Hub.Parallel
import RhythmLobby.Task.RoomNews

/-!
# Rooms under other passwords

Let every password be replaced by another one, such that different passwords stay different and
none stays none.  A room then refuses and does the same as before, and shows the same to its
members and in the store.

* `Recoding`               the replacement of passwords;
* `Room.recoded`, `Hub.recoded`   a room and all rooms under other passwords;
* `Room.recoded_join` and others  what is done with a room under other passwords;
* `RoomRef.parallel_publish` to `RoomNews.parallel_closeAll`   the tasks about rooms.
-/

namespace RhythmLobby

/-- a replacement of passwords that keeps different ones apart and leaves the empty one alone -/
structure Recoding where
  code : String → String
  injective : Function.Injective code
  empty : code "" = ""

namespace Recoding

variable (f : Recoding)

def apply (p : Option String) : Option String := p.map f.code

theorem code_eq_empty {s : String} : f.code s = "" ↔ s = "" :=
  ⟨fun h => f.injective (h.trans f.empty.symm), fun h => by rw [h, f.empty]⟩

theorem apply_inj {p q : Option String} : f.apply p = f.apply q ↔ p = q := by
  constructor
  · cases p <;> cases q <;> simp [apply]
    exact fun h => f.injective h
  · exact congrArg _

theorem isSome_apply (p : Option String) : (f.apply p).isSome = p.isSome := Option.isSome_map

theorem password?_apply (p : Option String) :
    Room.password? (f.apply p) = f.apply (Room.password? p) := by
  cases p with
  | none => rfl
  | some s =>
    by_cases h : s = ""
    · simp [apply, Room.password?, Option.filter, h, f.empty]
    · simp [apply, Room.password?, Option.filter, h, f.code_eq_empty]

end Recoding

/-- the same changes with another password -/
def SettingsPatch.recoded (f : Recoding) (p : SettingsPatch) : SettingsPatch :=
  { p with password := f.apply p.password }

variable (f : Recoding)

/-! ## Rooms -/

namespace Room

/-- the room under another password -/
def recoded (r : Room) : Room := { r with password := f.apply r.password }

variable (r : Room)

theorem recoded_listing : (r.recoded f).listing = r.listing := by
  simp [listing, recoded, f.isSome_apply]

theorem recoded_snapshot : (r.recoded f).snapshot = r.snapshot := by
  simp [snapshot, recoded, f.isSome_apply]

theorem recoded_liveListing : (r.recoded f).liveListing = r.liveListing := by
  simp only [liveListing, recoded_listing]
  rfl

theorem recoded_create (id : Int32) (settings : RoomSettings) (password : Option String)
    (host : PlayerProfile) :
    create id settings (f.apply password) host = (create id settings password host).recoded f := by
  simp [create, recoded, f.password?_apply]

theorem recoded_admits (guess : Option String) :
    (r.recoded f).admits (f.apply guess) = r.admits guess := by
  have hguess : (f.apply r.password == f.apply guess) = (r.password == guess) := by
    rw [Bool.eq_iff_iff, beq_iff_eq, beq_iff_eq, f.apply_inj]
  simp [admits, recoded, hguess, ← Option.not_isSome, f.isSome_apply]

/-! ## What is done with a room -/

theorem recoded_checkOpen : (r.recoded f).checkOpen = r.checkOpen := rfl

theorem recoded_checkMember (user : Int32) :
    (r.recoded f).checkMember user = r.checkMember user := rfl

theorem recoded_checkHost (user : Int32) : (r.recoded f).checkHost user = r.checkHost user := rfl

theorem recoded_checkIdle : (r.recoded f).checkIdle = r.checkIdle := rfl

/-- an operation and its counterpart under other passwords: both refuse in the same way, or give
the same and leave behind the room and its counterpart -/
def Recodes (op op' : Room → Except RoomError (β × Room)) : Prop :=
  ∀ r : Room, op' (r.recoded f) = (op r).map fun (x, r) => (x, r.recoded f)

/-- the same for an operation that only leaves a room behind -/
def RecodesRoom (op op' : Room → Except RoomError Room) : Prop :=
  ∀ r : Room, op' (r.recoded f) = (op r).map (·.recoded f)

theorem recoded_leave (user : Int32) :
    (r.recoded f).leave user = ((r.leave user).1, (r.leave user).2.recoded f) := by
  have hgone : ((r.recoded f).closed || !(r.recoded f).hasMember user) =
    (r.closed || !r.hasMember user) := rfl
  have hids : ((r.recoded f).without user).ids = (r.without user).ids := rfl
  have hhost : (r.recoded f).settings.hostId = r.settings.hostId := rfl
  unfold leave
  rw [hgone]
  by_cases h : (r.closed || !r.hasMember user) = true
  · rw [if_pos h, if_pos h]
  · rw [if_neg h, if_neg h]
    simp only [hids, hhost]
    cases (r.without user).ids with
    | nil => rfl
    | cons first _ =>
      simp only
      by_cases hh : r.settings.hostId = user
      · rw [if_pos hh, if_pos hh]
        rfl
      · rw [if_neg hh, if_neg hh]
        rfl

theorem recodes_join (profile : PlayerProfile) (guess : Option String) :
    Recodes f (·.join profile guess) (·.join profile (f.apply guess)) := by
  intro r
  have hmember : (r.recoded f).hasMember profile.userId = r.hasMember profile.userId := rfl
  have hmembers : (r.recoded f).members = r.members := rfl
  have hmax : (r.recoded f).settings = r.settings := rfl
  simp only [join, recoded_checkOpen, recoded_admits, hmember, hmembers, hmax]
  cases r.checkOpen with
  | error e => rfl
  | ok _ =>
    cases r.hasMember profile.userId with
    | true => rfl
    | false =>
      cases r.admits guess with
      | false => rfl
      | true =>
        by_cases hfull : r.settings.maxPlayers.toNat ≤ r.members.length
        · simp only [hfull]
          rfl
        · simp only [hfull]
          rfl

theorem recodes_modifyMember (user : Int32) (g : Member → Member) :
    Recodes f (·.modifyMember user g) (·.modifyMember user g) := by
  intro r
  have hmodify : (r.recoded f).modify user g = (r.modify user g).recoded f := rfl
  have hrecord : ((r.modify user g).recoded f).record user = (r.modify user g).record user := rfl
  simp only [modifyMember, recoded_checkMember, hmodify, hrecord]
  cases r.checkMember user with
  | error e => rfl
  | ok _ => cases (r.modify user g).record user <;> rfl

theorem recodes_close (caller : Option Int32) : Recodes f (·.close caller) (·.close caller) := by
  intro r
  cases caller with
  | none =>
    simp only [close, recoded_checkOpen]
    cases r.checkOpen <;> rfl
  | some user =>
    simp only [close, recoded_checkHost]
    cases r.checkHost user <;> rfl

theorem patchedPassword_recoded (old : Option String) (p : SettingsPatch) :
    patchedPassword (f.apply old) (p.recoded f) = f.apply (patchedPassword old p) := by
  unfold patchedPassword SettingsPatch.recoded
  cases p.password with
  | none => rfl
  | some new => exact f.password?_apply (some new)

theorem recodes_updateSettings (caller : Int32) (p : SettingsPatch) :
    RecodesRoom f (·.updateSettings caller p) (·.updateSettings caller (p.recoded f)) := by
  intro r
  have hpatched : patched (r.recoded f).settings (p.recoded f) = patched r.settings p := rfl
  have hmembers : (r.recoded f).members = r.members := rfl
  have hpassword : (r.recoded f).password = f.apply r.password := rfl
  simp only [updateSettings, recoded_checkHost, recoded_checkIdle, hpatched, hmembers, hpassword,
    patchedPassword_recoded]
  cases r.checkHost caller with
  | error e => rfl
  | ok _ =>
    cases r.checkIdle with
    | error e => rfl
    | ok _ =>
      cases checkSettings (patched r.settings p).name (patched r.settings p).maxPlayers
        r.members.length <;> rfl

theorem recodes_changeMap (caller : Int32) (map : MapInfo) :
    RecodesRoom f (·.changeMap caller map) (·.changeMap caller map) := by
  intro r
  simp only [changeMap, recoded_checkHost, recoded_checkIdle]
  cases r.checkHost caller with
  | error e => rfl
  | ok _ => cases r.checkIdle <;> rfl

theorem recodes_start (caller : Int32) : RecodesRoom f (·.start caller) (·.start caller) := by
  intro r
  simp only [start, recoded_checkHost, recoded_checkIdle]
  cases r.checkHost caller with
  | error e => rfl
  | ok _ => cases r.checkIdle <;> rfl

theorem recodes_finish (caller : Int32) : RecodesRoom f (·.finish caller) (·.finish caller) := by
  intro r
  have hsettings : (r.recoded f).settings = r.settings := rfl
  simp only [finish, recoded_checkHost, hsettings]
  cases r.checkHost caller with
  | error e => rfl
  | ok _ => cases r.settings.inProgress <;> rfl

theorem recodes_transferHost (caller heir : Int32) :
    RecodesRoom f (·.transferHost caller heir) (·.transferHost caller heir) := by
  intro r
  simp only [transferHost, recoded_checkHost, recoded_checkMember]
  cases r.checkHost caller with
  | error e => rfl
  | ok _ => cases r.checkMember heir <;> rfl

end Room

/-! ## All rooms -/

namespace Hub

/-- all rooms under other passwords -/
def recoded (h : Hub) : Hub := { h with rooms := h.rooms.map (Room.recoded f) }

variable (h : Hub)

theorem recoded_room (ref : RoomRef) : (h.recoded f).room ref = (h.room ref).recoded f := by
  unfold room recoded
  rw [List.getElem?_map]
  cases h.rooms[ref.key]? <;> rfl

theorem recoded_setRoom (ref : RoomRef) (r : Room) :
    (h.recoded f).setRoom ref (r.recoded f) = (h.setRoom ref r).recoded f := by
  unfold setRoom recoded
  rw [List.map_set]

theorem recoded_addRoom (r : Room) :
    (h.recoded f).addRoom (r.recoded f) = ((h.addRoom r).1, (h.addRoom r).2.recoded f) := by
  unfold addRoom recoded
  rw [List.map_append, List.length_map]
  rfl

end Hub

open Routine

/-! ## Records -/

namespace RoomRef

variable {β : Type} (ref : RoomRef)

/-- what is asked of a room and does not show the password -/
theorem parallel_readRoom {g : Room → β} (hg : ∀ r : Room, g (r.recoded f) = g r) :
    Parallel (Hub.recoded f) (read fun h => g (h.room ref)) (read fun h => g (h.room ref)) :=
  parallel_read fun h => by rw [Hub.recoded_room, hg]

theorem parallel_settleListing (written : Option Listing) :
    Parallel (Hub.recoded f) (ref.settleListing written) (ref.settleListing written) :=
  parallel_settling (fun written h => by
    simp only [listingTurn, Hub.recoded_room, Room.recoded_liveListing]) written

theorem parallel_settlePlayer (user : Int32) (written : Option PlayerRecord) :
    Parallel (Hub.recoded f) (ref.settlePlayer user written) (ref.settlePlayer user written) := by
  refine parallel_settling (fun written h => ?_) written
  have hlive : ((h.room ref).recoded f).liveRecord user = (h.room ref).liveRecord user := rfl
  simp only [playerTurn, Hub.recoded_room, hlive]

theorem parallel_writeListing (l : Listing) :
    Parallel (Hub.recoded f) (ref.writeListing l) (ref.writeListing l) :=
  (parallel_update _).bind fun _ => ref.parallel_settleListing f _

theorem parallel_writePlayer (record : PlayerRecord) :
    Parallel (Hub.recoded f) (ref.writePlayer record) (ref.writePlayer record) :=
  (parallel_update _).bind fun _ => ref.parallel_settlePlayer f _ _

theorem parallel_publish : Parallel (Hub.recoded f) ref.publish ref.publish := by
  refine (ref.parallel_readRoom f (g := fun r => (r.listing, r.members.map Member.record))
    fun r => ?_).bind fun shown => ?_
  · rw [Room.recoded_listing]
    rfl
  · exact (ref.parallel_writeListing f _).bind fun _ =>
      parallel_each (ref.parallel_writePlayer f) _

/-! ## Changes of a room -/

variable {f}

theorem parallel_change {op op' : Room → Except RoomError (β × Room)}
    (hop : Room.Recodes f op op') :
    Parallel (Hub.recoded f) (ref.change op) (ref.change op') := by
  refine parallel_transact fun h => ?_
  rw [Hub.recoded_room, hop]
  cases op (h.room ref) with
  | error e => rfl
  | ok p =>
    obtain ⟨x, r⟩ := p
    simp only [Except.map, Hub.recoded_setRoom]

theorem parallel_changePlayer {op op' : Room → Except RoomError (PlayerRecord × Room)}
    (hop : Room.Recodes f op op') :
    Parallel (Hub.recoded f) (ref.changePlayer op) (ref.changePlayer op') := by
  refine (ref.parallel_change hop).bind fun x => ?_
  cases x with
  | error e => exact .done _
  | ok record => exact (ref.parallel_writePlayer f record).bind fun _ => .done _

/-- an operation that leaves a room behind, and what it is asked for that does not show the
password -/
theorem recodes_map {op op' : Room → Except RoomError Room} (hop : Room.RecodesRoom f op op')
    {g : Room → β} (hg : ∀ r : Room, g (r.recoded f) = g r) :
    Room.Recodes f (fun r => (op r).map fun r => (g r, r))
      (fun r => (op' r).map fun r => (g r, r)) := by
  intro r
  simp only [hop r]
  cases op r with
  | error e => rfl
  | ok r' => simp only [Except.map, hg]

theorem parallel_changeListing {op op' : Room → Except RoomError Room}
    (hop : Room.RecodesRoom f op op') :
    Parallel (Hub.recoded f) (ref.changeListing op) (ref.changeListing op') := by
  refine (ref.parallel_change (recodes_map hop fun r => r.recoded_listing f)).bind fun x => ?_
  cases x with
  | error e => exact .done _
  | ok l => exact (ref.parallel_writeListing f l).bind fun _ => .done _

theorem parallel_changeAll {op op' : Room → Except RoomError Room}
    (hop : Room.RecodesRoom f op op') :
    Parallel (Hub.recoded f) (ref.changeAll op) (ref.changeAll op') := by
  refine (ref.parallel_change (recodes_map hop fun _ => rfl)).bind fun x => ?_
  cases x with
  | error e => exact .done _
  | ok _ => exact (ref.parallel_publish f).bind fun _ => .done _

variable (f)

theorem parallel_leave (user : Int32) :
    Parallel (Hub.recoded f) (ref.leave user) (ref.leave user) := by
  refine (parallel_transact fun h => ?_).bind fun p => ?_
  · simp only [Hub.recoded_room, Room.recoded_leave, Room.recoded_listing, Hub.recoded_setRoom]
  obtain ⟨outcome, l⟩ := p
  cases outcome with
  | notMember => exact .done _
  | emptied => exact (parallel_update _).bind fun _ => .done _
  | left =>
    refine (parallel_update _).bind fun _ => ?_
    exact (ref.parallel_settlePlayer f _ _).bind fun _ => .done _
  | hostPassed host =>
    refine (parallel_update _).bind fun _ => ?_
    refine (ref.parallel_settlePlayer f _ _).bind fun _ => ?_
    exact (ref.parallel_writeListing f l).bind fun _ => .done _

theorem parallel_close (caller : Option Int32) :
    Parallel (Hub.recoded f) (ref.close caller) (ref.close caller) := by
  refine (ref.parallel_change (Room.recodes_close f caller)).bind fun x => ?_
  cases x with
  | error e => exact .done _
  | ok members => exact (parallel_update _).bind fun _ => .done _

end RoomRef

/-! ## Who is in which room -/

namespace Rooms

theorem parallel_gauge : Parallel (Hub.recoded f) gauge gauge :=
  .bind (parallel_read fun _ => rfl) fun _ => parallel_emit _

theorem parallel_find (room : Int32) : Parallel (Hub.recoded f) (find room) (find room) :=
  parallel_read fun _ => rfl

theorem parallel_roomOf (user : Int32) : Parallel (Hub.recoded f) (roomOf user) (roomOf user) := by
  refine .bind (parallel_read fun _ => rfl) fun place => ?_
  cases place with
  | none => exact .done _
  | some room => exact parallel_find f room

theorem recoded_reserve (user room : Int32) (h : Hub) :
    reserve user room (h.recoded f) =
      ((reserve user room h).1, (reserve user room h).2.recoded f) := by
  unfold reserve
  rw [show (h.recoded f).memberships = h.memberships from rfl]
  split <;> rfl

theorem recoded_release (user room : Int32) (h : Hub) :
    release user room (h.recoded f) = (release user room h).recoded f := by
  unfold release
  rw [show (h.recoded f).memberships = h.memberships from rfl]
  split <;> rfl

theorem recoded_enter (r : Room) (h : Hub) :
    enter (r.recoded f) (h.recoded f) = ((enter r h).1, (enter r h).2.recoded f) := by
  unfold enter
  rw [Hub.recoded_addRoom]
  rfl

theorem parallel_create (request : RoomRequest) (host : PlayerProfile) :
    Parallel (Hub.recoded f) (create request host)
      (create { request with password := f.apply request.password } host) := by
  unfold create
  cases checkSettings request.name request.maxPlayers 1 with
  | error e => exact .done _
  | ok _ =>
    refine .bind (parallel_transact fun _ => rfl) fun id => ?_
    refine (parallel_transact (recoded_reserve f host.userId id)).bind fun free => ?_
    cases free with
    | false => exact .done _
    | true =>
      refine (parallel_transact fun h => ?_).bind fun ref => ?_
      · rw [Room.recoded_create]
        exact recoded_enter f _ h
      · refine (parallel_gauge f).bind fun _ => ?_
        exact (ref.parallel_publish f).bind fun _ => .done _

theorem parallel_join (room : Int32) (profile : PlayerProfile) (guess : Option String) :
    Parallel (Hub.recoded f) (join room profile guess) (join room profile (f.apply guess)) := by
  refine (parallel_find f room).bind fun found => ?_
  cases found with
  | none => exact .done _
  | some ref =>
    refine (parallel_transact (recoded_reserve f profile.userId room)).bind fun free => ?_
    cases free with
    | false => exact .done _
    | true =>
      have hjoin : Parallel (Hub.recoded f) (ref.join profile guess)
          (ref.join profile (f.apply guess)) :=
        (ref.parallel_changePlayer (Room.recodes_join f profile guess)).bind fun _ => .done _
      refine hjoin.bind fun joined => ?_
      cases joined with
      | ok _ => exact .done _
      | error e =>
        exact (Routine.parallel_change (recoded_release f profile.userId room)).bind
          fun _ => .done _

theorem parallel_leave (user : Int32) : Parallel (Hub.recoded f) (leave user) (leave user) := by
  refine .bind (parallel_transact fun _ => rfl) fun place => ?_
  cases place with
  | none => exact .done _
  | some room =>
    refine (parallel_find f room).bind fun found => ?_
    cases found with
    | none => exact .done _
    | some ref =>
      refine (ref.parallel_leave f user).bind fun outcome => ?_
      dsimp only
      split
      · refine .bind (Routine.parallel_change fun _ => rfl) fun _ => ?_
        exact (parallel_gauge f).bind fun _ => .done _
      · exact .done _

theorem parallel_remove (room : Int32) (caller : Option Int32) :
    Parallel (Hub.recoded f) (remove room caller) (remove room caller) := by
  refine (parallel_find f room).bind fun found => ?_
  cases found with
  | none => exact .done _
  | some ref =>
    refine (ref.parallel_close f caller).bind fun x => ?_
    cases x with
    | error e => exact .done _
    | ok members =>
      refine .bind (Routine.parallel_change fun _ => rfl) fun _ => ?_
      refine (parallel_each (fun user => ?_) members).bind fun _ => ?_
      · exact Routine.parallel_change (recoded_release f user room)
      · exact (parallel_gauge f).bind fun _ => .done _

end Rooms

/-! ## News -/

namespace RoomNews

theorem parallel_notify (users : List Int32) (p : ServerPacket) :
    Parallel (Hub.recoded f) (notify users p).void (notify users p).void :=
  .bind_void (parallel_read fun _ => rfl) fun _ => parallel_emit _

theorem parallel_notifyMembers (ref : RoomRef) (p : ServerPacket) :
    Parallel (Hub.recoded f) ((read fun h => (h.room ref).ids).bind fun ids => (notify ids p).void)
      ((read fun h => (h.room ref).ids).bind fun ids => (notify ids p).void) :=
  (ref.parallel_readRoom f fun _ => rfl).bind fun _ => parallel_notify f _ p

theorem parallel_sendUpdate (ref : RoomRef) :
    Parallel (Hub.recoded f) (sendUpdate ref) (sendUpdate ref) :=
  (ref.parallel_readRoom f fun r => r.recoded_snapshot f).bind fun _ =>
    parallel_notifyMembers f ref _

theorem parallel_leaveCurrent (user : Int32) :
    Parallel (Hub.recoded f) (leaveCurrent user) (leaveCurrent user) := by
  refine (Rooms.parallel_leave f user).bind fun left => ?_
  rcases left with _ | ⟨ref, outcome⟩
  · exact .done _
  cases outcome with
  | notMember => exact .done _
  | emptied => exact .done _
  | left =>
    refine (ref.parallel_readRoom f fun _ => rfl).bind fun _ => ?_
    exact (parallel_notify f _ _).drop (.done _)
  | hostPassed host =>
    refine (ref.parallel_readRoom f fun _ => rfl).bind fun _ => ?_
    apply (parallel_notify f _ _).drop
    exact (parallel_sendUpdate f ref).bind fun _ => .done _

theorem parallel_closeAll : Parallel (Hub.recoded f) closeAll closeAll := by
  refine .bind (parallel_read fun _ => rfl) fun refs => parallel_each (fun ref => ?_) refs
  refine (Rooms.parallel_remove f ref.id none).bind fun x => ?_
  cases x with
  | error e => exact .done _
  | ok members => exact parallel_notify f _ _

end RoomNews
end RhythmLobby
