import RhythmLobby.Proofs.Room.Invariant
import RhythmLobby.Task.RoomNews

/-!
# Moves change memory at one moment

Records are written and news is spread without touching memory, so that a move in a room is one
change of the room, however long its task goes on.  What is proved of lists of moves thus holds of
moves that are made at the same time.

* `Routine.Calm`           a task that leaves memory alone;
* `Routine.Once`           a task that looks at memory and is calm from then on;
* `RoomMove.once`          every move is such a task;
* `RoomMove.room_after`    whatever moves are made at once, the room is as after some list of them;
* `RoomMove.sound_traffic` so that it is sound at any time.
-/

namespace RhythmLobby
namespace Routine

variable {α β : Type} {w w' : World} {x : α}

/-! ## Calm tasks -/

/-- memory stays as it is -/
def Calm (r : Routine α) : Prop := r.Within (fun h h' => h' = h) fun _ => True

theorem calm_done (x : α) : (done x).Calm := trivial

theorem calm_read (f : Hub → α) : (read f).Calm := within_read f fun _ => rfl

theorem calm_emit (e : Effect) : (emit e).Calm := within_emit trivial

theorem calm_update (u : Cache.Update) : (update u).Calm := within_update trivial

theorem Calm.bind {r : Routine α} {f : α → Routine β} (hr : r.Calm) (hf : ∀ x, (f x).Calm) :
    (r.bind f).Calm := within_bind hr hf

theorem calm_each {f : α → Routine Unit} (hf : ∀ x, (f x).Calm) (xs : List α) :
    (each f xs).Calm := within_each fun x _ => hf x

theorem calm_settling {γ : Type} (turn : β → Hub → Turn β γ) (found : β) :
    (settling turn found).Calm := by
  refine within_settling found fun found h => ?_
  cases turn found h with
  | stop c => exact trivial
  | look found' => exact trivial
  | update u found' => exact trivial

theorem Silent.calm {r : Routine α} (hr : r.Silent) : r.Calm :=
  hr.mono (fun _ _ => id) fun _ _ => trivial

theorem Calm.ends {r : Routine α} (hr : r.Calm) (h : r.Ends w x w') : w'.hub = w.hub := by
  refine Within.induction (P := fun v => v.hub = w.hub) hr ?_ ?_ h rfl
  · intro v h hv heq
    subst heq
    exact hv
  · intro v e hv _
    rw [Effect.perform_hub]
    exact hv

/-- each step of a calm task leaves memory alone, and a calm task -/
theorem Calm.step {r : Routine α} (hr : r.Calm) (w : World) :
    (r.step w).2.hub = w.hub ∧ (r.step w).1.Calm := by
  cases r with
  | done x => exact ⟨rfl, hr⟩
  | atomic act next => exact ⟨hr.1 w.hub, hr.2 _⟩
  | effect e next => exact ⟨Effect.perform_hub e w, hr.2 _⟩
  | settle turn found next =>
    rw [Routine.step]
    split
    · exact ⟨rfl, hr.2 _⟩
    · exact ⟨rfl, hr⟩
    · exact ⟨rfl, (calm_update _).bind fun _ => hr⟩

/-! ## One look at memory -/

/-- the task changes memory as `act` says at its first step, and is calm from then on -/
inductive Once (act : Hub → Hub) : Routine α → Prop
  | intro {β : Type} {f : Hub → β × Hub} {next : β → Routine α} :
      (∀ h, (f h).2 = act h) → (∀ b, (next b).Calm) → Once act (atomic f next)

variable {act : Hub → Hub}

theorem once_transact {f : Hub → β × Hub} (hf : ∀ h, (f h).2 = act h) : (transact f).Once act :=
  .intro hf calm_done

theorem Once.bind {r : Routine α} {f : α → Routine β} (hr : r.Once act) (hf : ∀ x, (f x).Calm) :
    (r.bind f).Once act := by
  obtain ⟨hact, hnext⟩ := hr
  exact .intro hact fun b => (hnext b).bind hf

theorem Once.void {r : Routine α} (hr : r.Once act) : r.void.Once act :=
  hr.bind fun _ => calm_done ()

theorem Once.congr {act' : Hub → Hub} {r : Routine α} (hr : r.Once act)
    (h : ∀ h, act h = act' h) : r.Once act' := by
  obtain ⟨hact, hnext⟩ := hr
  exact .intro (fun m => (hact m).trans (h m)) hnext

theorem Once.step {r : Routine α} (hr : r.Once act) (w : World) :
    (r.step w).2.hub = act w.hub ∧ (r.step w).1.Calm := by
  obtain ⟨hact, hnext⟩ := hr
  exact ⟨hact w.hub, hnext _⟩

theorem Once.ends {r : Routine α} (hr : r.Once act) (h : r.Ends w x w') :
    w'.hub = act w.hub := by
  obtain ⟨hact, hnext⟩ := hr
  rw [ends_atomic] at h
  exact ((hnext _).ends h).trans (hact w.hub)

end Routine

open Routine

/-! ## Records -/

namespace RoomRef

variable {β : Type} (ref : RoomRef)

theorem calm_writeListing (l : Listing) : (ref.writeListing l).Calm :=
  (calm_update _).bind fun _ => calm_settling _ _

theorem calm_writePlayer (r : PlayerRecord) : (ref.writePlayer r).Calm :=
  (calm_update _).bind fun _ => calm_settling _ _

theorem calm_writeAll (l : Listing) (records : List PlayerRecord) :
    ((ref.writeListing l).bind fun _ => each ref.writePlayer records).Calm :=
  (ref.calm_writeListing l).bind fun _ => calm_each ref.calm_writePlayer records

theorem calm_publish : ref.publish.Calm := (calm_read _).bind fun _ => ref.calm_writeAll _ _

/-! ## Changes of a room -/

/-- memory once the room has changed, unless the room refuses -/
def changed (op : Room → Except RoomError (β × Room)) (h : Hub) : Hub :=
  match op (h.room ref) with
  | .ok (_, r) => h.setRoom ref r
  | .error _ => h

theorem once_change (op : Room → Except RoomError (β × Room)) :
    (ref.change op).Once (ref.changed op) := by
  refine once_transact fun h => ?_
  unfold changed
  cases op (h.room ref) with
  | ok x => rfl
  | error e => rfl

theorem once_changePlayer (op : Room → Except RoomError (PlayerRecord × Room)) :
    (ref.changePlayer op).Once (ref.changed op) := by
  refine Once.bind (ref.once_change op) fun changed => ?_
  cases changed with
  | error e => exact calm_done _
  | ok record => exact (ref.calm_writePlayer record).bind fun _ => calm_done _

theorem once_changeListing (op : Room → Except RoomError Room) :
    (ref.changeListing op).Once (ref.changed fun r => (op r).map fun r => (r.listing, r)) := by
  refine Once.bind (ref.once_change _) fun changed => ?_
  cases changed with
  | error e => exact calm_done _
  | ok l => exact (ref.calm_writeListing l).bind fun _ => calm_done _

theorem once_changeAll (op : Room → Except RoomError Room) :
    (ref.changeAll op).Once (ref.changed fun r => (op r).map fun r => ((), r)) := by
  refine Once.bind (ref.once_change _) fun changed => ?_
  cases changed with
  | error e => exact calm_done _
  | ok _ => exact ref.calm_publish.bind fun _ => calm_done _

theorem calm_unseat (user : Int32) {r : Routine β} (hr : r.Calm) :
    ((Routine.update (.noPlayer ref.id user)).bind fun _ =>
      (ref.settlePlayer user none).bind fun _ => r).Calm := by
  have hsettled : (ref.settlePlayer user none).Calm := calm_settling _ _
  have hrest : ((ref.settlePlayer user none).bind fun _ => r).Calm := hsettled.bind fun _ => hr
  exact (calm_update _).bind fun _ => hrest

theorem once_leave (user : Int32) :
    (ref.leave user).Once fun h => h.setRoom ref ((h.room ref).leave user).2 := by
  refine Once.bind (once_transact fun h => rfl) fun left => ?_
  obtain ⟨outcome, l⟩ := left
  cases outcome with
  | notMember => exact calm_done _
  | emptied => exact (calm_update _).bind fun _ => calm_done _
  | left => exact ref.calm_unseat user (calm_done _)
  | hostPassed host =>
    have hlisting := ref.calm_writeListing l
    apply ref.calm_unseat user
    exact hlisting.bind fun _ => calm_done _

theorem once_close (caller : Option Int32) :
    (ref.close caller).Once (ref.changed (·.close caller)) := by
  refine Once.bind (ref.once_change _) fun closed => ?_
  cases closed with
  | error e => exact calm_done _
  | ok members => exact (calm_update _).bind fun _ => calm_done _

end RoomRef

/-! ## News -/

theorem Rooms.calm_gauge : Rooms.gauge.Calm := (calm_read _).bind fun _ => calm_emit _

namespace RoomNews

theorem calm_notify (users : List Int32) (p : ServerPacket) : (notify users p).Calm :=
  (calm_read _).bind fun _ => calm_emit _

theorem calm_sendUpdate (ref : RoomRef) : (sendUpdate ref).Calm :=
  (calm_read _).bind fun _ => (calm_read _).bind fun _ =>
    (calm_notify _ _).bind fun _ => calm_done ()

end RoomNews

/-! ## Moves -/

theorem Hub.setRoom_room (h : Hub) (ref : RoomRef) : h.setRoom ref (h.room ref) = h := by
  have hsame : h.rooms.set ref.key (h.room ref) = h.rooms := by
    refine List.ext_getElem? fun k => ?_
    rw [List.getElem?_set]
    split
    · rename_i hk
      subst hk
      split
      · rename_i hlt
        rw [Hub.room, List.getElem?_eq_getElem hlt]
        rfl
      · rename_i hge
        exact (List.getElem?_eq_none (Nat.le_of_not_lt hge)).symm
    · rfl
  rw [Hub.setRoom, hsame]

namespace RoomMove
open RoomAnswer (attempt)

variable {ref : RoomRef}

/-- what becomes of memory if a change of the room is attempted -/
theorem changed_eq {α β : Type} (op : Room → Except RoomError (α × Room))
    (op' : Room → Except RoomError (β × Room)) (given : β → RoomAnswer)
    (hop : ∀ r, (op r).map Prod.snd = (op' r).map Prod.snd) (h : Hub) :
    ref.changed op h = h.setRoom ref (attempt (h.room ref) given (op' (h.room ref))).2 := by
  have hsame := hop (h.room ref)
  unfold RoomRef.changed
  cases hx : op (h.room ref) with
  | error e =>
    cases hy : op' (h.room ref) with
    | error e' => exact (h.setRoom_room ref).symm
    | ok p =>
      rw [hx, hy] at hsame
      cases hsame
  | ok p =>
    cases hy : op' (h.room ref) with
    | error e' =>
      rw [hx, hy] at hsame
      cases hsame
    | ok p' =>
      rw [hx, hy] at hsame
      have hroom : p.2 = p'.2 := Except.ok.inj hsame
      show h.setRoom ref p.2 = h.setRoom ref p'.2
      rw [hroom]

theorem changed_map {α : Type} (f : Room → α) (op : Room → Except RoomError Room) (h : Hub) :
    ref.changed (fun r => (op r).map fun r => (f r, r)) h =
      h.setRoom ref (attempt (h.room ref) (fun _ => .done)
        ((op (h.room ref)).map (Prod.mk ()))).2 := by
  refine changed_eq _ (fun r => (op r).map (Prod.mk ())) _ (fun r => ?_) h
  cases op r with
  | error e => rfl
  | ok r' => rfl

theorem once_player {α : Type} (op : Room → Except RoomError (PlayerRecord × Room))
    (f : Except RoomError PlayerRecord → Except RoomError α) (given : PlayerRecord → RoomAnswer) :
    ((ref.changePlayer op).bind fun x => .done (f x)).void.Once fun h =>
      h.setRoom ref (attempt (h.room ref) given (op (h.room ref))).2 := by
  refine Once.void (Once.bind ?_ fun _ => calm_done _)
  exact (ref.once_changePlayer op).congr (changed_eq op op given fun _ => rfl)

theorem once_listing (op : Room → Except RoomError Room) :
    (ref.changeListing op).void.Once fun h =>
      h.setRoom ref (attempt (h.room ref) (fun _ => .done)
        ((op (h.room ref)).map (Prod.mk ()))).2 :=
  ((ref.once_changeListing op).congr (changed_map _ op)).void

theorem once_all (op : Room → Except RoomError Room) :
    (ref.changeAll op).void.Once fun h =>
      h.setRoom ref (attempt (h.room ref) (fun _ => .done)
        ((op (h.room ref)).map (Prod.mk ()))).2 :=
  ((ref.once_changeAll op).congr (changed_map _ op)).void

/-- a move changes memory at its first step, where it changes the room, and leaves it alone from
then on -/
theorem once (m : RoomMove) (ref : RoomRef) :
    (m.task ref).Once fun h => h.setRoom ref (m.run (h.room ref)).2 := by
  cases m with
  | publish => exact .intro (fun h => (h.setRoom_room ref).symm) fun _ => ref.calm_writeAll _ _
  | join profile guess => exact once_player (·.join profile guess) _ _
  | leave user => exact (ref.once_leave user).void
  | setReady user ready => exact once_player (·.setReady user ready) _ _
  | setHasMap user hasMap => exact once_player (·.setHasMap user hasMap) _ _
  | setModifiers user modifiers => exact once_player (·.setModifiers user modifiers) _ _
  | addWin user => exact once_player (·.addWin user) _ _
  | updateSettings caller patch => exact once_listing (·.updateSettings caller patch)
  | changeMap caller map => exact once_all (·.changeMap caller map)
  | start caller => exact once_listing (·.start caller)
  | finish caller => exact once_all (·.finish caller)
  | transferHost caller heir => exact once_listing (·.transferHost caller heir)
  | close caller =>
    exact ((ref.once_close caller).congr (changed_eq _ (·.close caller) _ fun _ => rfl)).void

/-- a task that is calm, or a move that has not been made yet -/
def Pending (ref : RoomRef) (r : Routine Unit) : Prop := r.Calm ∨ ∃ m : RoomMove, r = m.task ref

theorem Pending.step {r : Routine Unit} (hr : Pending ref r) (w : World) :
    Pending ref (r.step w).1 ∧ ∃ moves : List RoomMove,
      (r.step w).2.hub = w.hub.setRoom ref ((w.hub.room ref).after moves) := by
  rcases hr with hcalm | ⟨m, rfl⟩
  · obtain ⟨hhub, hnext⟩ := hcalm.step w
    refine ⟨.inl hnext, [], ?_⟩
    rw [hhub, Room.after_nil, Hub.setRoom_room]
  · obtain ⟨hhub, hnext⟩ := (m.once ref).step w
    exact ⟨.inl hnext, [m], hhub⟩

/-- whatever moves are made at once, the room is as after some list of them -/
theorem room_after {c c' : Scene RoomMove} (hlt : ref.key < c.world.hub.rooms.length)
    (hc : ∀ r ∈ c.tasks, Pending ref r) (h : (traffic ref).Reaches c c') :
    ∃ moves, c'.world.hub.room ref = (c.world.hub.room ref).after moves := by
  suffices ref.key < c'.world.hub.rooms.length ∧ (∀ r ∈ c'.tasks, Pending ref r) ∧
      ∃ moves, c'.world.hub.room ref = (c.world.hub.room ref).after moves from this.2.2
  induction h with
  | refl => exact ⟨hlt, hc, [], rfl⟩
  | @tail d _ _ hn ih =>
    obtain ⟨hlt, hpending, moves, hroom⟩ := ih
    cases hn with
    | arrive _ =>
      refine ⟨hlt, fun r hr => ?_, moves, hroom⟩
      rcases List.mem_append.mp hr with hr | hr
      · exact hpending r hr
      · exact .inr ⟨_, List.mem_singleton.mp hr⟩
    | @step before after r ht =>
      have hr : r ∈ d.tasks := by
        rw [ht]
        exact List.mem_append_right _ (List.mem_cons_self ..)
      obtain ⟨hnext, more, hhub⟩ := (hpending r hr).step d.world
      refine ⟨?_, fun q hq => ?_, moves ++ more, ?_⟩
      · rw [hhub, Hub.length_setRoom]
        exact hlt
      · rcases List.mem_append.mp hq with hq | hq
        · exact hpending q (ht ▸ List.mem_append_left _ hq)
        · rcases List.mem_cons.mp hq with rfl | hq
          · exact hnext
          · exact hpending q (ht ▸ List.mem_append_right _ (List.mem_cons_of_mem _ hq))
      · show (r.step d.world).2.hub.room ref = _
        rw [hhub, Hub.room_setRoom hlt, hroom, Room.after, Room.after, Room.after,
          List.foldl_append]
    | whole hw => exact hw.elim

/-- whatever moves are made at once in a sound room, the room is sound at any time -/
theorem sound_traffic {c c' : Scene RoomMove} (hlt : ref.key < c.world.hub.rooms.length)
    (hc : ∀ r ∈ c.tasks, Pending ref r) (hsound : (c.world.hub.room ref).Sound)
    (h : (traffic ref).Reaches c c') : (c'.world.hub.room ref).Sound := by
  obtain ⟨moves, hroom⟩ := room_after hlt hc h
  rw [hroom]
  exact Room.sound_after hsound moves

end RoomMove
end RhythmLobby
