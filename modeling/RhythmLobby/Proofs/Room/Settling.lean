import RhythmLobby.Proofs.Hub.Interleaving
import RhythmLobby.Proofs.Room.Convergence
import RhythmLobby.Proofs.Room.Halting

/-!
# Settling comes to an end

Other tasks may change a room between any two steps of a settling loop.  Each further round of the
loop needs such a change, so that the loop ends when the changes do.

* `RoomRef.settles_listing`, `RoomRef.settles_player`   one look decides what a loop does;
* `RoomMove.boundedCalls`   a move of a room costs at most one call per change of others meanwhile;
* `settling_ends`           every settling loop ends, with the number of its calls on the store.
-/

namespace RhythmLobby
open Cache Routine

namespace RoomRef

variable (ref : RoomRef)

theorem settles_listing : Settles ref.listingTurn (·.room ref) Room.Rated where
  same {found h h'} hroom := by
    have hroom : h.room ref = h'.room ref := hroom
    rw [listingTurn, listingTurn, hroom]
  once found _ hrated := ref.listingTurn_once found hrated

theorem settles_player (user : Int32) :
    Settles (ref.playerTurn user) (·.room ref) Room.Rated where
  same {found h h'} hroom := by
    have hroom : h.room ref = h'.room ref := hroom
    rw [playerTurn, playerTurn, hroom]
  once found h _ := ref.playerTurn_once user found h

end RoomRef

/-! ## What the records of a room have to show -/

namespace Room

theorem shows_of_open {r : Room} (hids : r.ids.Nodup) (hopen : r.closed = false) :
    r.liveListing = some r.listing ∧
      ∀ record ∈ r.members.map Member.record,
        r.liveRecord record.profile.userId = some record := by
  refine ⟨liveListing_of_open hopen, fun record hrecord => ?_⟩
  obtain ⟨member, hmember, rfl⟩ := List.mem_map.mp hrecord
  rw [liveRecord_of_open hopen]
  exact record_of_mem hids hmember

/-- what a room shows after a user has left it, where its listing was `l` -/
def ShowsLeaving (r : Room) (user : Int32) (l : Listing) : LeaveOutcome → Prop
  | .left => r.liveRecord user = none
  | .hostPassed _ => r.liveRecord user = none ∧ r.liveListing = some l
  | _ => True

theorem showsLeaving (r : Room) (user : Int32) :
    (r.leave user).2.ShowsLeaving user (r.leave user).2.listing (r.leave user).1 := by
  have hgone : (r.without user).record user = none := by rw [record_without, if_pos rfl]
  rcases leave_cases r user with h | ⟨hopen, -, ⟨-, h⟩ | ⟨-, h | ⟨host, h⟩⟩⟩
  all_goals rw [h]
  · exact trivial
  · exact trivial
  · exact (liveRecord_of_open (r := r.without user) hopen user).trans hgone
  · have hopen : ((r.without user).hostedBy host).closed = false := hopen
    exact ⟨(liveRecord_of_open hopen user).trans hgone, liveListing_of_open hopen⟩

end Room

/-! ## Writes and their settling -/

namespace Interleaving

variable {α : Type} {X : Interleaving α} {ref : RoomRef} {o n m s : Nat}

/-- at some moment since `o` the room was like this, or it has changed since -/
abbrev SeenRoom (X : Interleaving α) (ref : RoomRef) (P : Room → Prop) (o n : Nat) : Prop :=
  X.Seen (·.room ref) (fun h => P (h.room ref)) o n

/-- all settling loops of the task are about this room and informed since `o` -/
abbrev Careful (X : Interleaving α) (ref : RoomRef) (o : Nat) {δ : Type} (r : Routine δ)
    (Q : δ → Nat → Prop) (n : Nat) : Prop :=
  X.LoopsInformed (·.room ref) Room.Rated o r Q n

theorem careful_update (u : Update) :
    X.Careful ref o (Routine.update u) (fun _ m => n ≤ m) n :=
  fun _ _ hnm => Nat.le_succ_of_le hnm

theorem careful_settlePlayer {user : Int32} {written : Option PlayerRecord}
    (hseen : X.SeenRoom ref (fun r => r.liveRecord user = written) o n) :
    X.Careful ref o (ref.settlePlayer user written) (fun _ m => n ≤ m) n := by
  exact ⟨ref.settles_player user, hseen.imp fun _ hlive => ⟨(), if_pos hlive⟩, fun _ _ => id⟩

theorem careful_writePlayer {record : PlayerRecord} (hon : o ≤ n)
    (hseen : X.SeenRoom ref (fun r => r.liveRecord record.profile.userId = some record) o n) :
    X.Careful ref o (ref.writePlayer record) (fun _ m => n ≤ m) n :=
  (careful_update _).bind fun _ _ hnm =>
    (careful_settlePlayer (hseen.mono hon hnm)).weaken fun _ _ => Nat.le_trans hnm

section Rated

variable (hrated : ∀ n, ((X.world n).hub.room ref).Rated)
include hrated

theorem careful_settleListing {written : Option Listing}
    (hseen : X.SeenRoom ref (fun r => r.liveListing = written) o n) :
    X.Careful ref o (ref.settleListing written) (fun _ m => n ≤ m) n := by
  refine ⟨ref.settles_listing, hseen.imp fun m hlive => ⟨(), if_pos ?_⟩, fun _ _ => id⟩
  rw [← hlive]
  exact RoomRef.sameListing_refl (hrated m)

theorem careful_writeListing {l : Listing} (hon : o ≤ n)
    (hseen : X.SeenRoom ref (fun r => r.liveListing = some l) o n) :
    X.Careful ref o (ref.writeListing l) (fun _ m => n ≤ m) n :=
  (careful_update _).bind fun _ _ hnm =>
    (careful_settleListing hrated (hseen.mono hon hnm)).weaken fun _ _ => Nat.le_trans hnm

/-! ## All records -/

theorem careful_writeAll {l : Listing} {records : List PlayerRecord} (hon : o ≤ n)
    (hlisting : X.SeenRoom ref (fun r => r.liveListing = some l) o n)
    (hrecords : ∀ record ∈ records,
      X.SeenRoom ref (fun r => r.liveRecord record.profile.userId = some record) o n) :
    X.Careful ref o ((ref.writeListing l).bind fun _ => Routine.each ref.writePlayer records)
      (fun _ m => n ≤ m) n := by
  refine (careful_writeListing hrated hon hlisting).bind fun _ m hnm => ?_
  refine (LoopsInformed.each fun record hrecord k hmk => ?_).weaken fun _ _ => Nat.le_trans hnm
  exact careful_writePlayer (by omega) ((hrecords record hrecord).mono hon (by omega))

/-- what a publication reads is right, or the room has been closed since it was open -/
theorem careful_publish (hnodup : ∀ n, ((X.world n).hub.room ref).ids.Nodup) (hon : o ≤ n)
    (hopen : ((X.world o).hub.room ref).closed = false) :
    X.Careful ref o ref.publish (fun _ m => n ≤ m) n := by
  intro k hnk
  have hseen {P : Room → Prop} (hP : ((X.world k).hub.room ref).closed = false →
      P ((X.world k).hub.room ref)) : X.SeenRoom ref P o (k + 1) := by
    suffices X.SeenRoom ref P o k from this.mono (by omega) (Nat.le_succ k)
    by_cases hc : ((X.world k).hub.room ref).closed = false
    · exact .now (by omega) (hP hc)
    · exact .inr (changes_pos (by omega) fun hsame => hc (hsame ▸ hopen))
  refine (careful_writeAll hrated (by omega) ?_ fun record hrecord => ?_).weaken
    fun _ m hkm => by omega
  · exact hseen fun hc => (Room.shows_of_open (hnodup k) hc).1
  · exact hseen fun hc => (Room.shows_of_open (hnodup k) hc).2 record hrecord

end Rated

/-! ## Changes and what follows them -/

/-- If the task takes its first step at `s`, which looks at memory and changes it, then it is
careful from the next moment on. -/
def CarefulAfter (X : Interleaving α) (ref : RoomRef) (s : Nat) {δ : Type} (r : Routine δ)
    (Q : δ → Nat → Prop) : Prop :=
  match r with
  | .atomic act next => (X.world (s + 1)).hub = (act (X.world s).hub).2 →
      X.Careful ref (s + 1) (next (act (X.world s).hub).1) Q (s + 1)
  | _ => False

variable {δ ε : Type}

theorem CarefulAfter.bind {r : Routine δ} {f : δ → Routine ε} {Q : δ → Nat → Prop}
    {Q' : ε → Nat → Prop} (hr : X.CarefulAfter ref s r Q)
    (hf : ∀ x m, Q x m → X.Careful ref (s + 1) (f x) Q' m) :
    X.CarefulAfter ref s (r.bind f) Q' := by
  cases r with
  | atomic act next => exact fun hworld => (hr hworld).bind hf
  | done x => exact hr.elim
  | effect e next => exact hr.elim
  | settle turn found next => exact hr.elim

theorem carefulAfter_change (op : Room → Except RoomError (δ × Room)) {Q : Room → δ → Prop}
    (hop : ∀ r x r', op r = .ok (x, r') → r.closed = false ∧ Q r' x) :
    X.CarefulAfter ref s (ref.change op) fun x m =>
      s + 1 ≤ m ∧ Room.Answered True (Q ((X.world (s + 1)).hub.room ref)) x := by
  intro hworld
  refine ⟨Nat.le_refl _, ?_⟩
  dsimp only at hworld ⊢
  cases hr : op ((X.world s).hub.room ref) with
  | error e => exact trivial
  | ok p =>
    obtain ⟨x, r'⟩ := p
    obtain ⟨hopen, hQ⟩ := hop _ _ _ hr
    rw [hr] at hworld
    have hroom : (X.world (s + 1)).hub.room ref = r' := by
      rw [hworld]
      exact Hub.room_setRoom (Hub.made_of_open hopen) r'
    show Q ((X.world (s + 1)).hub.room ref) x
    rwa [hroom]

theorem carefulAfter_changePlayer {op : Room → Except RoomError (PlayerRecord × Room)}
    {user : Int32}
    (hop : ∀ r record r', op r = .ok (record, r') → r.PlayerChange user record r') :
    X.CarefulAfter ref s (ref.changePlayer op) fun _ _ => True := by
  refine (carefulAfter_change op (Q := fun r record =>
    r.liveRecord record.profile.userId = some record) fun r record r' hr => ?_).bind ?_
  · have hc := hop r record r' hr
    refine ⟨hc.wasOpen, ?_⟩
    rw [Room.liveRecord_of_open hc.isOpen, hc.owner]
    exact hc.record
  · intro x m h
    obtain ⟨hsm, hx⟩ := h
    cases x with
    | error e => exact trivial
    | ok record =>
      refine (careful_writePlayer hsm ?_).bind fun _ _ _ => trivial
      exact .inl ⟨s + 1, Nat.le_refl _, hsm, hx⟩

theorem carefulAfter_close (caller : Option Int32) :
    X.CarefulAfter ref s (ref.close caller) fun _ _ => True := by
  refine (carefulAfter_change (fun r => r.close caller) (Q := fun _ _ => True)
    fun r l r' hr => ⟨(Room.close_ok hr).1, trivial⟩).bind ?_
  intro x m _
  cases x with
  | error e => exact trivial
  | ok members =>
    exact (careful_update (n := m) _).bind fun _ _ _ => trivial

theorem carefulAfter_publish (hrated : ∀ n, ((X.world n).hub.room ref).Rated)
    (hids : ((X.world s).hub.room ref).ids.Nodup)
    (hopen : ((X.world s).hub.room ref).closed = false) :
    X.CarefulAfter ref s ref.publish fun _ _ => True := by
  intro hworld
  obtain ⟨hlisting, hrecords⟩ := Room.shows_of_open hids hopen
  have hnow {P : Room → Prop} (hP : P ((X.world s).hub.room ref)) :
      X.SeenRoom ref P (s + 1) (s + 1) := .now (Nat.le_refl _) (by rwa [hworld])
  exact (careful_writeAll hrated (Nat.le_refl _) (hnow hlisting) fun record hrecord =>
    hnow (hrecords record hrecord)).weaken fun _ _ _ => trivial

section Changes

variable (hrated : ∀ n, ((X.world n).hub.room ref).Rated)
include hrated

theorem carefulAfter_changeListing {op : Room → Except RoomError Room}
    (hop : ∀ r r', op r = .ok r' → r.ListingChange r') :
    X.CarefulAfter ref s (ref.changeListing op) fun _ _ => True := by
  refine (carefulAfter_change (fun r => (op r).map fun r => (r.listing, r))
    (Q := fun r l => r.liveListing = some l) fun r l r' hr => ?_).bind ?_
  · obtain ⟨r'', ho, heq⟩ := Room.map_ok hr
    cases heq
    have hc := hop r r' ho
    exact ⟨hc.wasOpen, Room.liveListing_of_open hc.isOpen⟩
  · intro x m h
    obtain ⟨hsm, hx⟩ := h
    cases x with
    | error e => exact trivial
    | ok l =>
      refine (careful_writeListing hrated hsm ?_).bind fun _ _ _ => trivial
      exact .inl ⟨s + 1, Nat.le_refl _, hsm, hx⟩

theorem carefulAfter_changeAll (hnodup : ∀ n, ((X.world n).hub.room ref).ids.Nodup)
    {op : Room → Except RoomError Room} (hop : ∀ r r', op r = .ok r' → r.Reset r') :
    X.CarefulAfter ref s (ref.changeAll op) fun _ _ => True := by
  refine (carefulAfter_change (fun r => (op r).map fun r => ((), r))
    (Q := fun r _ => r.closed = false) fun r l r' hr => ?_).bind ?_
  · obtain ⟨r'', ho, heq⟩ := Room.map_ok hr
    cases heq
    have hc := hop r r' ho
    exact ⟨hc.wasOpen, hc.isOpen⟩
  · intro x m h
    obtain ⟨hsm, hx⟩ := h
    cases x with
    | error e => exact trivial
    | ok l => exact (careful_publish hrated hnodup hsm hx).bind fun _ _ _ => trivial

theorem carefulAfter_leave (user : Int32) :
    X.CarefulAfter ref s (ref.leave user) fun _ _ => True := by
  have hleaves : X.CarefulAfter ref s (Routine.transact fun h =>
      ((((h.room ref).leave user).1, ((h.room ref).leave user).2.listing),
        h.setRoom ref ((h.room ref).leave user).2)) fun read m =>
      s + 1 ≤ m ∧ ((X.world (s + 1)).hub.room ref).ShowsLeaving user read.2 read.1 := by
    intro hworld
    dsimp only at hworld ⊢
    refine ⟨Nat.le_refl _, ?_⟩
    by_cases hopen : ((X.world s).hub.room ref).closed = false
    · rw [hworld, Hub.room_setRoom (Hub.made_of_open hopen)]
      exact Room.showsLeaving _ user
    · rw [Room.leave_of_notMem (.inl ((Bool.not_eq_false _).mp hopen))]
      exact trivial
  apply hleaves.bind
  intro x₀ m hall
  obtain ⟨outcome, l⟩ := x₀
  obtain ⟨hsm, hleft⟩ := hall
  cases outcome with
  | notMember => exact trivial
  | emptied =>
    exact (careful_update (n := m) _).bind fun _ _ _ => trivial
  | left =>
    refine (careful_update (n := m) _).bind fun _ k hmk => ?_
    refine (careful_settlePlayer ?_).bind fun _ _ _ => trivial
    exact .inl ⟨s + 1, Nat.le_refl _, by omega, hleft⟩
  | hostPassed host =>
    refine (careful_update (n := m) _).bind fun _ k hmk => ?_
    refine (careful_settlePlayer ?_).bind fun _ j hkj => ?_
    · exact .inl ⟨s + 1, Nat.le_refl _, by omega, hleft.1⟩
    refine (careful_writeListing hrated (by omega) ?_).bind fun _ _ _ => trivial
    exact .inl ⟨s + 1, Nat.le_refl _, by omega, hleft.2⟩

end Changes

/-! ## Moves -/

theorem CarefulAfter.void {r : Routine δ} (hr : X.CarefulAfter ref s r fun _ _ => True) :
    X.CarefulAfter ref s r.void fun _ _ => True := hr.bind fun _ _ _ => trivial

theorem carefulAfter_task (hrated : ∀ n, ((X.world n).hub.room ref).Rated)
    (hnodup : ∀ n, ((X.world n).hub.room ref).ids.Nodup) (m : RoomMove)
    (hm : m = .publish → ((X.world s).hub.room ref).closed = false) :
    X.CarefulAfter ref s (m.task ref) fun _ _ => True := by
  have hmember {op : Room → Except RoomError (PlayerRecord × Room)} {user : Int32} {ε : Type}
      {f : Except RoomError PlayerRecord → Except RoomError ε}
      (hop : ∀ r record r', op r = .ok (record, r') → r.PlayerChange user record r') :
      X.CarefulAfter ref s ((ref.changePlayer op).bind fun x => .done (f x)).void
        fun _ _ => True := by
    have hchange : X.CarefulAfter ref s ((ref.changePlayer op).bind fun x => .done (f x))
        fun _ _ => True := (carefulAfter_changePlayer hop).bind fun _ _ _ => trivial
    exact hchange.void
  cases m with
  | publish => exact carefulAfter_publish hrated (hnodup s) (hm rfl)
  | join profile guess => exact hmember fun _ _ _ => Room.join_ok
  | leave user => exact (carefulAfter_leave hrated user).void
  | setReady user ready => exact hmember fun _ _ _ => Room.setReady_ok
  | setHasMap user hasMap => exact hmember fun _ _ _ => Room.setHasMap_ok
  | setModifiers user modifiers => exact hmember fun _ _ _ => Room.setModifiers_ok
  | addWin user => exact hmember fun _ _ _ => Room.addWin_ok
  | updateSettings caller patch =>
    exact (carefulAfter_changeListing hrated fun _ _ => Room.updateSettings_ok).void
  | changeMap caller map =>
    exact (carefulAfter_changeAll hrated hnodup fun _ _ => Room.changeMap_ok).void
  | start caller => exact (carefulAfter_changeListing hrated fun _ _ => Room.start_ok).void
  | finish caller => exact (carefulAfter_changeAll hrated hnodup fun _ _ => Room.finish_ok).void
  | transferHost caller heir =>
    exact (carefulAfter_changeListing hrated fun _ _ => Room.transferHost_ok).void
  | close caller => exact (carefulAfter_close caller).void

theorem CarefulAfter.careful {a : Nat} {r : Routine α} {Q : α → Nat → Prop}
    (h : X.CarefulAfter ref s r Q) (hs : X.NextTurn a s) (htask : X.task a = r) :
    X.Careful ref (s + 1) (X.task (s + 1)) Q (s + 1) := by
  have hnext := hs.task_succ
  have hworld := congrArg World.hub hs.world_succ
  rw [htask] at hnext hworld
  rw [hnext]
  cases r with
  | atomic act next => exact h hworld
  | done x => exact h.elim
  | effect e next => exact h.elim
  | settle turn found next => exact h.elim

end Interleaving

/-! ## Every loop ends -/

/-- Other tasks may do anything at any moment.  As long as difficulties are numbers and the room
changes only finitely often, every settling loop ends, and its calls on the store are bounded by
the changes of the room.  In a move of the room, every write is followed by no more calls than there
are changes after the first step of the move. -/
theorem settling_ends {α : Type} (X : Interleaving α) (hfair : X.Fair) (ref : RoomRef)
    (hrated : ∀ n, ((X.world n).hub.room ref).Rated) (hcalms : X.Calms (·.room ref)) :
    (∀ a written next, X.task a = (ref.settleListing written).bind next →
      X.Finishes (·.room ref) ref.listingTurn written next a) ∧
    (∀ a user written next, X.task a = (ref.settlePlayer user written).bind next →
      X.Finishes (·.room ref) (ref.playerTurn user) written next a) ∧
    ((∀ n, ((X.world n).hub.room ref).ids.Nodup) →
      (∀ (m : RoomMove) x a s, X.task a = (m.task ref).bind (fun _ => .done x) →
        X.NextTurn a s → (m = .publish → ((X.world s).hub.room ref).closed = false) →
        X.BoundedCalls (·.room ref) (s + 1)) ∧
      ∀ x a, X.task a = ref.publish.bind (fun _ => .done x) →
        ((X.world a).hub.room ref).closed = false → X.BoundedCalls (·.room ref) a) := by
  refine ⟨fun a written next htask => ?_, fun a user written next htask => ?_, fun hnodup =>
    ⟨fun m x a s htask hs hm => ?_, fun x a htask hopen => ?_⟩⟩
  · exact Interleaving.exists_loop hfair ref.settles_listing hrated hcalms htask
  · exact Interleaving.exists_loop hfair (ref.settles_player user) hrated hcalms htask
  · have hcareful : X.CarefulAfter ref s ((m.task ref).bind fun _ => .done x) fun _ _ => True :=
      (Interleaving.carefulAfter_task hrated hnodup m hm).bind fun _ _ _ => trivial
    exact (hcareful.careful hs htask).boundedCalls hfair hrated hcalms
  · have hcareful : X.Careful ref a (ref.publish.bind fun _ => .done x) (fun _ _ => True) a :=
      (Interleaving.careful_publish hrated hnodup (Nat.le_refl a) hopen).bind fun _ _ _ => trivial
    rw [← htask] at hcareful
    exact hcareful.boundedCalls hfair hrated hcalms

namespace RoomMove

/-- two tasks change the same member of a new room -/
def disputed : Scene RoomMove :=
  ⟨{ World.blank with hub := newRoom.2 },
    [task newRoom.1 (.setReady 7 true), task newRoom.1 (.setReady 7 false)], []⟩

/-- the first of the two tasks, which take turns -/
def disputedTask : Interleaving Unit := disputed.follow (· % 2) 0 (by decide)

theorem disputedTask_world {n : Nat} (hn : 9 ≤ n) :
    disputedTask.world n = disputedTask.world 9 :=
  congrArg Scene.world (Scene.Quiet.after (Scene.quiet_of_all (by decide +kernel)) hn)

/-- what is so up to the end of both tasks is so for ever -/
theorem disputedTask_always {P : World → Prop} (h : ∀ n < 10, P (disputedTask.world n)) :
    ∀ n, P (disputedTask.world n) := by
  intro n
  by_cases hn : n < 10
  · exact h n hn
  · rw [disputedTask_world (by omega)]
    exact h 9 (by decide)

theorem disputedTask_fair : disputedTask.Fair := by
  refine fun n => ⟨2 * n, by omega, ?_⟩
  show (2 * n % 2 == 0) = true
  rw [Nat.mul_mod_right]
  rfl

theorem disputedTask_calms : disputedTask.Calms (·.room newRoom.1) :=
  ⟨9, fun n hn => by rw [disputedTask_world hn, disputedTask_world (Nat.le_succ_of_le hn)]⟩

end RoomMove

theorem settling_ends_disputed :
    RoomMove.disputedTask.Fair ∧
    (∀ n, ((RoomMove.disputedTask.world n).hub.room RoomMove.newRoom.1).Rated) ∧
    RoomMove.disputedTask.Calms (·.room RoomMove.newRoom.1) ∧
    (∀ n, ((RoomMove.disputedTask.world n).hub.room RoomMove.newRoom.1).ids.Nodup) ∧
    RoomMove.disputedTask.Finishes (·.room RoomMove.newRoom.1) (RoomMove.newRoom.1.playerTurn 7)
      (some ⟨⟨7, "ada", "", "", ""⟩, 0, 0, true, true⟩) (fun _ => .done ()) 3 ∧
    RoomMove.disputedTask.BoundedCalls (·.room RoomMove.newRoom.1) 1 := by
  have hrated : ∀ n, ((RoomMove.disputedTask.world n).hub.room RoomMove.newRoom.1).Rated :=
    RoomMove.disputedTask_always (P := fun w =>
      (w.hub.room RoomMove.newRoom.1).settings.map.difficulty.isNaN = false) (by decide +kernel)
  have hnodup : ∀ n, ((RoomMove.disputedTask.world n).hub.room RoomMove.newRoom.1).ids.Nodup :=
    RoomMove.disputedTask_always (P := fun w => (w.hub.room RoomMove.newRoom.1).ids.Nodup)
      (by decide +kernel)
  have hstarts : RoomMove.disputedTask.task 0 =
      (RoomMove.task RoomMove.newRoom.1 (.setReady 7 true)).bind fun _ => .done () :=
    (Routine.done_bind (RoomMove.task RoomMove.newRoom.1 (.setReady 7 true))).symm
  obtain ⟨-, hplayer, hmoves⟩ := settling_ends RoomMove.disputedTask RoomMove.disputedTask_fair
    RoomMove.newRoom.1 hrated RoomMove.disputedTask_calms
  refine ⟨RoomMove.disputedTask_fair, hrated, RoomMove.disputedTask_calms, hnodup,
    hplayer 3 7 _ _ rfl, ?_⟩
  exact (hmoves hnodup).1 _ () 0 0 hstarts ⟨Nat.le_refl 0, rfl, fun n _ hn => by omega⟩
    fun h => by cases h

end RhythmLobby
