import RhythmLobby.Proofs.Room.Slots
import RhythmLobby.Task.Rooms

/-!
# The records of a room converge

Any number of tasks change one room and write its records, in any order.  Whenever none of them is
at work, the cache shows the room as it is.

* `RoomMove`                 what can be done in a room;
* `RoomMove.clears`          no move leaves a duty behind;
* `room_records_converge`    the records when no task is at work.
-/

namespace RhythmLobby
open Cache

namespace RoomRef

variable {ref : RoomRef}

/-! ## Changes of one member -/

theorem listing_clears_changePlayer {op : Room → Except RoomError (PlayerRecord × Room)}
    (hop : ∀ r record r', op r = .ok (record, r') → ∃ user, r.PlayerChange user record r')
    (h : Hub) : ref.listingSlot.Clears (ref.changePlayer op) h .nothing := by
  refine Discipline.keeps_bind (keeps_change (Q := fun _ _ d => d = .nothing)
    (fun _ _ => rfl) ?_ h) ?_
  · intro r record r' ho
    obtain ⟨user, hc⟩ := hop r record r' ho
    exact ⟨hc.wasOpen, .nothing, .inl hc.liveListing, fun _ _ => rfl⟩
  · intro changed h d hd
    subst hd
    cases changed with
    | error e => exact Slot.clears_done
    | ok record =>
      have hk : Key.room ref.id ≠ .player ref.id record.profile.userId := by simp
      exact (Slot.clears_elsewhere (S := ref.listingSlot) (spares_writePlayer hk) h).bind
        fun _ _ => Slot.clears_done

theorem player_clears_changePlayer {op : Room → Except RoomError (PlayerRecord × Room)}
    (hop : ∀ r record r', op r = .ok (record, r') → ∃ user, r.PlayerChange user record r')
    (user : Int32) (h : Hub) : (ref.playerSlot user).Clears (ref.changePlayer op) h .nothing := by
  refine Discipline.keeps_bind (keeps_change (Q := fun x _ d =>
    Room.Answered (d = .nothing)
      (fun record => record.profile.userId ≠ user → d = .nothing) x) (fun _ _ => rfl) ?_ h) ?_
  · intro r record r' ho
    obtain ⟨v, hc⟩ := hop r record r' ho
    refine ⟨hc.wasOpen, ?_⟩
    by_cases hv : v = user
    · exact ⟨.owes, .inr fun _ => trivial, fun _ _ hne => absurd (hc.owner.trans hv) hne⟩
    · exact ⟨.nothing, .inl (hc.liveRecord_of_ne (Ne.symm hv)), fun _ _ _ => rfl⟩
  · intro changed h d hd
    cases changed with
    | error e => exact hd
    | ok record =>
      refine Discipline.keeps_bind (keeps_writePlayer user record h d) fun _ _ d' hd' => ?_
      rcases hd' with hd' | ⟨hne, rfl⟩
      · exact hd'
      · exact hd hne

/-! ## Changes of the settings -/

theorem listing_clears_changeListing {op : Room → Except RoomError Room}
    (hop : ∀ r r', op r = .ok r' → r.ListingChange r') (h : Hub) :
    ref.listingSlot.Clears (ref.changeListing op) h .nothing := by
  refine Discipline.keeps_bind (keeps_change (Q := fun x _ d =>
    Room.Answered (d = .nothing) (fun _ => True) x) (fun _ _ => rfl) ?_ h) ?_
  · intro r l r' hx
    obtain ⟨r'', ho, hr⟩ := Room.map_ok hx
    cases hr
    exact ⟨(hop r r' ho).wasOpen, .owes, .inr fun _ => trivial, fun _ _ => trivial⟩
  · intro changed h d hd
    cases changed with
    | error e => exact hd
    | ok l => exact (clears_writeListing l h d).bind fun _ _ => Slot.clears_done

theorem player_clears_changeListing {op : Room → Except RoomError Room}
    (hop : ∀ r r', op r = .ok r' → r.ListingChange r') (user : Int32) (h : Hub) :
    (ref.playerSlot user).Clears (ref.changeListing op) h .nothing := by
  refine Discipline.keeps_bind (keeps_change (Q := fun _ _ d => d = .nothing)
    (fun _ _ => rfl) ?_ h) ?_
  · intro r l r' hx
    obtain ⟨r'', ho, hr⟩ := Room.map_ok hx
    cases hr
    have hc := hop r r' ho
    exact ⟨hc.wasOpen, .nothing, .inl (hc.liveRecord user), fun _ _ => rfl⟩
  · intro changed h d hd
    subst hd
    cases changed with
    | error e => exact Slot.clears_done
    | ok l =>
      have hk : Key.player ref.id user ≠ .room ref.id := by simp
      exact (Slot.clears_elsewhere (S := ref.playerSlot user) (spares_writeListing hk l) h).bind
        fun _ _ => Slot.clears_done

/-! ## Changes of everything -/

theorem listing_clears_changeAll {op : Room → Except RoomError Room}
    (hop : ∀ r r', op r = .ok r' → r.Reset r') (h : Hub) :
    ref.listingSlot.Clears (ref.changeAll op) h .nothing := by
  refine Discipline.keeps_bind (keeps_change (Q := fun x _ d =>
    Room.Answered (d = .nothing) (fun _ => True) x) (fun _ _ => rfl) ?_ h) ?_
  · intro r _ r' hx
    obtain ⟨r'', ho, hr⟩ := Room.map_ok hx
    cases hr
    exact ⟨(hop r r' ho).wasOpen, .owes, .inr fun _ => trivial, fun _ _ => trivial⟩
  · intro changed h d hd
    cases changed with
    | error e => exact hd
    | ok _ => exact (listing_clears_publish h d).bind fun _ _ => Slot.clears_done

theorem player_clears_changeAll {op : Room → Except RoomError Room}
    (hop : ∀ r r', op r = .ok r' → r.Reset r') (user : Int32) (h : Hub) :
    (ref.playerSlot user).Clears (ref.changeAll op) h .nothing := by
  refine Discipline.keeps_bind (keeps_change (Q := fun x _ d =>
    Room.Answered (d = .nothing) (fun _ => ∀ r, ¬ d none r) x) (fun _ _ => rfl) ?_ h) ?_
  · intro r _ r' hx
    obtain ⟨r'', ho, hr⟩ := Room.map_ok hx
    cases hr
    have hc := hop r r' ho
    refine ⟨hc.wasOpen, .pledge fun v => v.isSome = true, ?_, fun _ _ _ hn => by cases hn⟩
    cases hv : r'.liveRecord user with
    | none => exact .inl (hc.liveRecord_eq_none hv).symm
    | some record => exact .inr fun _ => rfl
  · intro changed h d hd
    cases changed with
    | error e => exact hd
    | ok _ => exact (player_clears_publish h hd).bind fun _ _ => Slot.clears_done

/-! ## Members who go -/

section Leave

variable {V : Type} {key : Key} {live : Room → V} {shows : V → Option Record → Prop}

theorem keeps_leaving (user : Int32) {Q : LeaveOutcome × Listing → Hub →
      (ref.slot key live shows).Duty → Prop}
    (hq : ∀ r o r', r.leave user = (o, r') →
      ∃ d : (ref.slot key live shows).Duty, (live r' = live r ∨ ∀ x, d (live r') x) ∧
        ∀ h', h'.room ref = r' → Q (o, r'.listing) h' d) (h : Hub) :
    (ref.slot key live shows).discipline.Keeps
      (Routine.transact fun h =>
        let (outcome, r) := (h.room ref).leave user
        ((outcome, r.listing), h.setRoom ref r)) Q h .nothing := by
  refine Discipline.keeps_transact fun h₁ _ hs => ?_
  obtain ⟨d, hv, hqd⟩ := hq (h₁.room ref) _ _ rfl
  refine ⟨d, turn_setRoom hs (fun hc => Room.closed_leave hc user) hv, hqd _ ?_⟩
  exact Hub.room_setRoom hs _

end Leave

theorem listing_clears_leave (user : Int32) (h : Hub) :
    ref.listingSlot.Clears (ref.leave user) h .nothing := by
  have hk : Key.room ref.id ≠ .player ref.id user := by simp
  have hupdate : Slot.Spares (Key.room ref.id).text
      (Routine.update (Update.noPlayer ref.id user)) :=
    Routine.within_update fun r => (Update.leaves_noPlayer _ r ref.id user).trans (if_neg hk)
  refine Discipline.keeps_bind (keeps_leaving user (Q := fun p h' d =>
    match p.1 with
    | .emptied => (h'.room ref).closed = true
    | .hostPassed _ => True
    | _ => d = .nothing) ?_ h) ?_
  · intro r o r' hl
    rcases Room.leave_cases r user with h | ⟨hopen, -, ⟨-, h⟩ | ⟨-, h | ⟨host, h⟩⟩⟩
    · rw [h] at hl
      cases hl
      exact ⟨.nothing, .inl rfl, fun _ _ => rfl⟩
    · rw [h] at hl
      cases hl
      refine ⟨.owes, .inr fun _ => trivial, fun h' hroom => ?_⟩
      show (h'.room ref).closed = true
      rw [hroom]
    · rw [h] at hl
      cases hl
      exact ⟨.nothing, .inl rfl, fun _ _ => rfl⟩
    · rw [h] at hl
      cases hl
      exact ⟨.owes, .inr fun _ => trivial, fun _ _ => trivial⟩
  · intro left h d hd
    obtain ⟨outcome, l⟩ := left
    cases outcome with
    | notMember => exact hd
    | emptied => exact (listing_clears_noRoom [user] hd d).bind fun _ _ => Slot.clears_done
    | left =>
      cases hd
      refine (Slot.clears_elsewhere hupdate h).bind fun _ h => ?_
      exact (Slot.clears_elsewhere (S := ref.listingSlot) (spares_settlePlayer hk none) h).bind
        fun _ _ => Slot.clears_done
    | hostPassed host =>
      refine Discipline.keeps_bind (Slot.keeps_elsewhere hupdate h d) fun _ h d' _ => ?_
      refine Discipline.keeps_bind (Slot.keeps_elsewhere (S := ref.listingSlot)
        (spares_settlePlayer hk none) h d') fun _ h d'' _ => ?_
      exact (clears_writeListing l h d'').bind fun _ _ => Slot.clears_done

theorem player_clears_leave (leaver user : Int32) (h : Hub) :
    (ref.playerSlot user).Clears (ref.leave leaver) h .nothing := by
  have hk : Key.player ref.id user ≠ .room ref.id := by simp
  refine Discipline.keeps_bind (keeps_leaving leaver (Q := fun p h' d =>
    match p.1 with
    | .notMember => d = .nothing
    | .emptied => (leaver ≠ user → d = .nothing) ∧ (h'.room ref).closed = true
    | _ => leaver ≠ user → d = .nothing) ?_ h) ?_
  · intro r o r' hl
    have hclosed : ∀ h' : Hub, h'.room ref = r' → o = .emptied → (h'.room ref).closed = true := by
      intro h' hroom ho
      subst ho
      rw [hroom]
      exact Room.closed_of_emptied hl
    by_cases hu : leaver = user
    · cases o with
      | notMember =>
        rw [Room.eq_of_notMember hl]
        exact ⟨.nothing, .inl rfl, fun _ _ => rfl⟩
      | emptied =>
        exact ⟨.owes, .inr fun _ => trivial, fun h' hroom => ⟨absurd hu, hclosed h' hroom rfl⟩⟩
      | left => exact ⟨.owes, .inr fun _ => trivial, fun _ _ => absurd hu⟩
      | hostPassed host => exact ⟨.owes, .inr fun _ => trivial, fun _ _ => absurd hu⟩
    · have hstays : r'.liveRecord user = r.liveRecord user := by
        have := Room.liveRecord_leave r (Ne.symm hu)
        rwa [hl] at this
      refine ⟨.nothing, .inl hstays, fun h' hroom => ?_⟩
      cases o with
      | notMember => rfl
      | emptied => exact ⟨fun _ => rfl, hclosed h' hroom rfl⟩
      | left => exact fun _ => rfl
      | hostPassed host => exact fun _ => rfl
  · intro left h d hd
    obtain ⟨outcome, l⟩ := left
    cases outcome with
    | notMember => exact hd
    | emptied =>
      refine (player_clears_noRoom hd.2 fun hu => hd.1 fun hl => ?_).bind
        fun _ _ => Slot.clears_done
      exact hu (List.mem_singleton.mpr hl.symm)
    | left => exact player_clears_gone (fun _ _ => Slot.clears_done) h hd
    | hostPassed host =>
      refine player_clears_gone (fun _ h => ?_) h hd
      exact (Slot.clears_elsewhere (S := ref.playerSlot user) (spares_writeListing hk l) h).bind
        fun _ _ => Slot.clears_done

/-! ## Closing -/

theorem listing_clears_close (caller : Option Int32) (h : Hub) :
    ref.listingSlot.Clears (ref.close caller) h .nothing := by
  refine Discipline.keeps_bind (keeps_change (Q := fun x h' d =>
    Room.Answered (d = .nothing) (fun _ => (h'.room ref).closed = true) x) (fun _ _ => rfl) ?_ h) ?_
  · intro r members r' ho
    obtain ⟨hopen, -, rfl⟩ := Room.close_ok ho
    refine ⟨hopen, .owes, .inr fun _ => trivial, fun h' hroom => ?_⟩
    show (h'.room ref).closed = true
    rw [hroom]
  · intro closed h d hd
    cases closed with
    | error e => exact hd
    | ok members => exact (listing_clears_noRoom members hd d).bind fun _ _ => Slot.clears_done

theorem player_clears_close (caller : Option Int32) (user : Int32) (h : Hub) :
    (ref.playerSlot user).Clears (ref.close caller) h .nothing := by
  refine Discipline.keeps_bind (keeps_change (Q := fun x h' d =>
    Room.Answered (d = .nothing)
      (fun members => (user ∉ members → d = .nothing) ∧ (h'.room ref).closed = true) x)
    (fun _ _ => rfl) ?_ h) ?_
  · intro r members r' ho
    obtain ⟨hopen, rfl, rfl⟩ := Room.close_ok ho
    refine ⟨hopen, ?_⟩
    by_cases hu : user ∈ r.ids
    · refine ⟨.owes, .inr fun _ => trivial, fun h' hroom => ⟨absurd hu, ?_⟩⟩
      rw [hroom]
    · have hnone : ({ r with members := [], closed := true } : Room).liveRecord user =
          r.liveRecord user := by
        rw [Room.liveRecord_of_closed rfl, Room.liveRecord_of_notMem hu]
      refine ⟨.nothing, .inl hnone, fun h' hroom => ⟨fun _ => rfl, ?_⟩⟩
      rw [hroom]
  · intro closed h d hd
    cases closed with
    | error e => exact hd
    | ok members => exact (player_clears_noRoom hd.2 hd.1).bind fun _ _ => Slot.clears_done

/-! ## All moves -/

/-- the tasks of which every move consists leave no duty behind -/
structure Serves (ref : RoomRef) (S : Slot) : Prop where
  publish : ∀ h, S.Clears ref.publish h .nothing
  changePlayer : ∀ op, (∀ r record r', op r = .ok (record, r') →
    ∃ user, r.PlayerChange user record r') → ∀ h, S.Clears (ref.changePlayer op) h .nothing
  changeListing : ∀ op, (∀ r r', op r = .ok r' → r.ListingChange r') →
    ∀ h, S.Clears (ref.changeListing op) h .nothing
  changeAll : ∀ op, (∀ r r', op r = .ok r' → r.Reset r') →
    ∀ h, S.Clears (ref.changeAll op) h .nothing
  leave : ∀ user h, S.Clears (ref.leave user) h .nothing
  close : ∀ caller h, S.Clears (ref.close caller) h .nothing

theorem serves_listing (ref : RoomRef) : ref.Serves ref.listingSlot where
  publish h := listing_clears_publish h _
  changePlayer _ := listing_clears_changePlayer
  changeListing _ := listing_clears_changeListing
  changeAll _ := listing_clears_changeAll
  leave := listing_clears_leave
  close := listing_clears_close

theorem serves_player (ref : RoomRef) (user : Int32) : ref.Serves (ref.playerSlot user) where
  publish h := player_clears_publish h fun _ hn => hn
  changePlayer _ hop := player_clears_changePlayer hop user
  changeListing _ hop := player_clears_changeListing hop user
  changeAll _ hop := player_clears_changeAll hop user
  leave leaver := player_clears_leave leaver user
  close caller := player_clears_close caller user

end RoomRef

/-- what can be done in a room -/
inductive RoomMove where
  | publish
  | join (profile : PlayerProfile) (guess : Option String)
  | leave (user : Int32)
  | setReady (user : Int32) (ready : Bool)
  | setHasMap (user : Int32) (hasMap : Bool)
  | setModifiers (user : Int32) (modifiers : Int64)
  | addWin (user : Int32)
  | updateSettings (caller : Int32) (patch : SettingsPatch)
  | changeMap (caller : Int32) (map : MapInfo)
  | start (caller : Int32)
  | finish (caller : Int32)
  | transferHost (caller heir : Int32)
  | close (caller : Option Int32)

namespace RoomMove

def task (ref : RoomRef) : RoomMove → Routine Unit
  | publish => ref.publish
  | join profile guess => (ref.join profile guess).void
  | leave user => (ref.leave user).void
  | setReady user ready => (ref.setReady user ready).void
  | setHasMap user hasMap => (ref.setHasMap user hasMap).void
  | setModifiers user modifiers => (ref.setModifiers user modifiers).void
  | addWin user => (ref.addWin user).void
  | updateSettings caller patch => (ref.updateSettings caller patch).void
  | changeMap caller map => (ref.changeMap caller map).void
  | start caller => (ref.start caller).void
  | finish caller => (ref.finish caller).void
  | transferHost caller heir => (ref.transferHost caller heir).void
  | close caller => (ref.close caller).void

/-- the moves of one room, which may be made at any moment -/
def traffic (ref : RoomRef) : Traffic RoomMove where
  task := task ref
  may _ _ := True
  whole _ _ _ := False

variable {α : Type} {ref : RoomRef} {S : Slot}

theorem clears_member (hS : ref.Serves S) {op : Room → Except RoomError (PlayerRecord × Room)}
    {user : Int32} (hop : ∀ r record r', op r = .ok (record, r') → r.PlayerChange user record r')
    {f : Except RoomError PlayerRecord → Except RoomError α} (h : Hub) :
    S.Clears ((ref.changePlayer op).bind fun x => .done (f x)).void h .nothing :=
  ((hS.changePlayer op (fun r record r' ho => ⟨user, hop r record r' ho⟩) h).bind
    fun _ _ => Slot.clears_done).void

theorem clears (hS : ref.Serves S) (m : RoomMove) (h : Hub) : S.Clears (m.task ref) h .nothing := by
  cases m with
  | publish => exact hS.publish h
  | join profile guess => exact clears_member hS (fun _ _ _ => Room.join_ok) h
  | leave user => exact (hS.leave user h).void
  | setReady user ready => exact clears_member hS (fun _ _ _ => Room.setReady_ok) h
  | setHasMap user hasMap => exact clears_member hS (fun _ _ _ => Room.setHasMap_ok) h
  | setModifiers user modifiers =>
    exact clears_member hS (fun _ _ _ => Room.setModifiers_ok) h
  | addWin user => exact clears_member hS (fun _ _ _ => Room.addWin_ok) h
  | updateSettings caller patch =>
    exact (hS.changeListing _ (fun _ _ => Room.updateSettings_ok) h).void
  | changeMap caller map => exact (hS.changeAll _ (fun _ _ => Room.changeMap_ok) h).void
  | start caller => exact (hS.changeListing _ (fun _ _ => Room.start_ok) h).void
  | finish caller => exact (hS.changeAll _ (fun _ _ => Room.finish_ok) h).void
  | transferHost caller heir =>
    exact (hS.changeListing _ (fun _ _ => Room.transferHost_ok) h).void
  | close caller => exact (hS.close caller h).void

theorem guards (hS : ref.Serves S) :
    S.discipline.Guards (traffic ref) fun w ds _ => S.Guarded w ds where
  arrive _ hg _ _ := ⟨.nothing, clears hS _ _, hg.arrive _⟩
  moves _ hg hm := Slot.guarded_moves hg hm
  whole _ _ hw := hw.elim

/-- whatever moves are made, the record is right when no task is at work -/
theorem shows_of_quiet (hS : ref.Serves S) {w : World} (hw : w.Reliable) (hs : S.sound w.hub)
    {r : Routine Unit} {d : S.Duty} (hr : S.Clears r w.hub d)
    (hd : S.shows (S.live w.hub) (w.record S.key) ∨ d (S.live w.hub) (w.record S.key))
    {c : Scene RoomMove} (h : (traffic ref).Reaches ⟨w, [r], []⟩ c) (hq : c.Quiet) :
    S.shows (S.live c.world.hub) (c.world.record S.key) := by
  have hbegin : S.discipline.TasksFit (fun w ds _ => S.Guarded w ds)
      (⟨w, [r], []⟩ : Scene RoomMove) := by
    refine ⟨hs, [⟨r, w.hub, d⟩], rfl, ?_, hw, ?_⟩
    · intro p hp
      rw [List.mem_singleton] at hp
      subst hp
      exact ⟨S.drift_refl _, hr⟩
    · rcases hd with hd | hd
      · exact .inl hd
      · exact .inr ⟨d, List.mem_singleton_self d, hd⟩
  obtain ⟨ds, hrest, hg⟩ := ((guards hS).reaches h hbegin).rest hq
  exact hg.shows hrest

end RoomMove

/-! ## A new room -/

theorem Rooms.room_enter (r : Room) (h : Hub) :
    (Rooms.enter r h).1.key < (Rooms.enter r h).2.rooms.length ∧
      (Rooms.enter r h).2.room (Rooms.enter r h).1 = r := by
  simp [enter, Hub.addRoom, Hub.room]

/-- Whenever no task is at work on a new room, the cache shows its settings and its members, and
nothing of it once it is closed. -/
theorem room_records_converge {w : World} (hw : w.Reliable) (id : Int32) (settings : RoomSettings)
    (password : Option String) (host : PlayerProfile)
    (hnone : ∀ user, w.record (Key.player id user).text = none) {ref : RoomRef} {hub : Hub}
    (hnew : Rooms.enter (Room.create id settings password host) w.hub = (ref, hub))
    {c : Scene RoomMove}
    (h : (RoomMove.traffic ref).Reaches ⟨{ w with hub := hub }, [ref.publish], []⟩ c)
    (hq : c.Quiet) :
    RoomRef.ShowsListing (c.world.hub.room ref).liveListing (c.world.record (Key.room id).text) ∧
      ∀ user, c.world.record (Key.player id user).text =
        ((c.world.hub.room ref).liveRecord user).map .player := by
  have hid : ref.id = id := by
    have := congrArg (fun p => p.1.id) hnew
    exact this.symm
  have hsound : ref.key < hub.rooms.length := by
    have := (Rooms.room_enter (Room.create id settings password host) w.hub).1
    rwa [hnew] at this
  have hw' : ({ w with hub := hub } : World).Reliable := hw
  subst hid
  refine ⟨?_, fun user => ?_⟩
  · exact RoomMove.shows_of_quiet (S := ref.listingSlot) (d := .owes)
      (RoomRef.serves_listing ref) hw' hsound (RoomRef.listing_clears_publish _ _)
      (.inr trivial) h hq
  · refine RoomMove.shows_of_quiet (S := ref.playerSlot user)
      (d := .pledge fun v => v.isSome = true) (RoomRef.serves_player ref user) hw' hsound
      (RoomRef.player_clears_publish _ fun _ hn => by cases hn) ?_ h hq
    cases hv : (hub.room ref).liveRecord user with
    | none => exact .inl ((hnone user).trans (congrArg (Option.map Record.player) hv.symm))
    | some record => exact .inr (congrArg Option.isSome hv)

/-! ## A room that is closed while its records are being written -/

namespace RoomMove

/-- a new room, which user 7 hosts -/
def newRoom : RoomRef × Hub :=
  Rooms.enter (Room.create 1 (.fresh "den" 4 ⟨1, 1, "", "", .keys4, .zero⟩ 7) none
    ⟨7, "ada", "", "", ""⟩) World.blank.hub

/-- the records of the room are still to be written -/
def begun : Scene RoomMove := ⟨{ World.blank with hub := newRoom.2 }, [newRoom.1.publish], []⟩

/-- the host closes the room, and its records are deleted before they are first written -/
def hastyClose : Scene RoomMove :=
  ((traffic newRoom.1).call begun (.close (some 7))).turns [0, 1, 1, 0, 0, 0, 0, 0, 0, 0, 0]

end RoomMove

theorem room_records_converge_hastyClose :
    RoomRef.ShowsListing (RoomMove.hastyClose.world.hub.room RoomMove.newRoom.1).liveListing
      (RoomMove.hastyClose.world.record (Key.room 1).text) ∧
    ∀ user, RoomMove.hastyClose.world.record (Key.player 1 user).text =
      ((RoomMove.hastyClose.world.hub.room RoomMove.newRoom.1).liveRecord user).map .player := by
  have hnew : Rooms.enter _ World.blank.hub = (RoomMove.newRoom.1, RoomMove.newRoom.2) := rfl
  refine room_records_converge World.reliable_blank 1 _ none _ (fun _ => rfl) hnew ?_ ?_
  · have harrive : (RoomMove.traffic RoomMove.newRoom.1).Reaches RoomMove.begun _ :=
      .single (.arrive (i := .close (some 7)) trivial)
    exact harrive.trans (Traffic.reaches_turns _ _ _)
  · exact Scene.quiet_of_all (by decide +kernel)

end RhythmLobby
