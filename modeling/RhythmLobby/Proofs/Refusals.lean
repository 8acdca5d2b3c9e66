import RhythmLobby.Proofs.Room.Notes

/-!
# Refused packets change nothing

Every way to refuse a packet comes before its first effect, or undoes what has been done.

* `Routine.Clean`, `Routine.Sure`   a refusal leaves no trace, and there are no refusals;
* `Rooms.clean_join`, `Rooms.create_refused`, `Rooms.leave_nowhere`   places that are given back;
* `Session.clean_handle`            all packets but two are refused without any trace;
* `Hub.Spared`                      what a refusal leaves of memory;
* `refused_packets_change_nothing`  whatever has been done with the server before.
-/

namespace RhythmLobby
open Cache Routine World

/-! ## Refusals without a trace -/

namespace Routine

variable {α β ε ε' : Type}

/-- whenever the task is refused, it has had no effect and has left the world as it was -/
def Clean (r : Routine (Except ε α)) : Prop :=
  ∀ ⦃w e w' es⦄, r.Does w (.error e) w' es → w' = w ∧ es = []

/-- the task is never refused -/
def Sure (r : Routine (Except ε α)) : Prop := ∀ ⦃w e w' es⦄, ¬ r.Does w (.error e) w' es

theorem Sure.clean {r : Routine (Except ε α)} (hr : r.Sure) : r.Clean :=
  fun _ _ _ _ h => (hr h).elim

theorem sure_done (x : α) : (done (.ok x) : Routine (Except ε α)).Sure := by
  intro w e w' es h
  cases (does_done h).1

theorem sure_then {r : Routine β} {f : β → Routine (Except ε α)} (hf : ∀ x, (f x).Sure) :
    (r.bind f).Sure := by
  intro w e w' es h
  obtain ⟨es₁, es₂, -, x, w₁, -, h₂⟩ := does_bind h
  exact hf x h₂

theorem clean_refused (e : ε) : (done (.error e) : Routine (Except ε α)).Clean := by
  intro w e' w' es h
  exact (does_done h).2

theorem clean_read {g : Hub → β} {f : β → Routine (Except ε α)} (hf : ∀ x, (f x).Clean) :
    ((read g).bind f).Clean := fun _ _ _ _ h => hf _ (does_read_bind h)

/-- a task that may be refused is done first, and no refusal comes after it -/
theorem Clean.bind {r : Routine (Except ε β)} {f : Except ε β → Routine (Except ε' α)}
    (hr : r.Clean) (hrefused : ∀ e, (f (.error e)).Clean) (hdone : ∀ x, (f (.ok x)).Sure) :
    (r.bind f).Clean := by
  intro w e w' es h
  obtain ⟨es₁, es₂, rfl, x, w₁, h₁, h₂⟩ := does_bind h
  cases x with
  | error e₁ =>
    obtain ⟨rfl, rfl⟩ := hr h₁
    exact hrefused e₁ h₂
  | ok x => exact absurd h₂ (hdone x h₂).elim

theorem Clean.map {r : Routine (Except ε β)} (hr : r.Clean) (f : β → α) :
    (r.bind fun x => done (x.map f)).Clean := hr.bind clean_refused fun _ => sure_done _

end Routine

/-! ## Rooms -/

namespace RoomRef

variable {β : Type} (ref : RoomRef)

theorem clean_change (op : Room → Except RoomError (β × Room)) : (ref.change op).Clean := by
  intro w e w' es h
  obtain ⟨hx, hw, rfl⟩ := does_transact h
  cases ho : op (w.hub.room ref) with
  | error e' =>
    rw [ho] at hw
    exact ⟨hw, rfl⟩
  | ok changed =>
    rw [ho] at hx
    cases hx

theorem clean_changePlayer (op : Room → Except RoomError (PlayerRecord × Room)) :
    (ref.changePlayer op).Clean := by
  refine Clean.bind (ref.clean_change op) (fun e => ?_) fun record => ?_
  · exact clean_refused e
  · exact sure_then fun _ => sure_done _

theorem clean_changeListing (op : Room → Except RoomError Room) : (ref.changeListing op).Clean := by
  refine Clean.bind (ref.clean_change _) (fun e => ?_) fun l => ?_
  · exact clean_refused e
  · exact sure_then fun _ => sure_done _

theorem clean_changeAll (op : Room → Except RoomError Room) : (ref.changeAll op).Clean := by
  refine Clean.bind (ref.clean_change _) (fun e => ?_) fun _ => ?_
  · exact clean_refused e
  · exact sure_then fun _ => sure_done _

theorem clean_close (caller : Option Int32) : (ref.close caller).Clean := by
  refine Clean.bind (ref.clean_change _) (fun e => ?_) fun members => ?_
  · exact clean_refused e
  · exact sure_then fun _ => sure_done _

theorem clean_join (profile : PlayerProfile) (guess : Option String) :
    (ref.join profile guess).Clean :=
  (ref.clean_changePlayer (·.join profile guess)).map fun _ => ()

end RoomRef

namespace Rooms

variable {w w' : World} {es : List Effect}

theorem clean_remove (room : Int32) (caller : Option Int32) : (remove room caller).Clean := by
  refine clean_read fun found => ?_
  cases found with
  | none => exact clean_refused _
  | some ref =>
    refine (ref.clean_close caller).bind clean_refused fun members => ?_
    exact sure_then fun _ => sure_then fun _ => sure_then fun _ => sure_done _

theorem clean_join (room : Int32) (profile : PlayerProfile) (guess : Option String) :
    (join room profile guess).Clean := by
  refine clean_read fun found => ?_
  cases found with
  | none => exact clean_refused _
  | some ref =>
    intro w e w' es h
    replace h := does_transact_bind h
    rcases Hub.reserve_cases profile.userId room w.hub with hr | ⟨hnew, hr⟩
    · rw [hr] at h
      exact (does_done h).2
    · rw [hr] at h
      obtain ⟨es₁, es₂, rfl, joined, w₁, h₁, h₂⟩ := does_bind h
      cases joined with
      | error e₁ =>
        obtain ⟨rfl, rfl⟩ := ref.clean_join profile guess h₁
        replace h₂ := does_change_bind h₂
        obtain ⟨-, rfl, rfl⟩ := does_done h₂
        refine ⟨?_, rfl⟩
        show { w with hub := release profile.userId room (w.hub.note profile.userId room) } = w
        rw [Hub.release_note hnew]
      | ok _ => cases (does_done h₂).1

theorem create_refused {request : RoomRequest} {host : PlayerProfile} {e : RoomError}
    (h : (create request host).Does w (.error e) w' es) :
    es = [] ∧ (w' = w ∨ w' = { w with hub := (takeId w.hub).2 }) := by
  unfold create at h
  split at h
  · obtain ⟨-, rfl, rfl⟩ := does_done h
    exact ⟨rfl, .inl rfl⟩
  replace h := does_transact_bind (does_transact_bind h)
  rcases Hub.reserve_cases host.userId (takeId w.hub).1 (takeId w.hub).2 with hr | ⟨-, hr⟩
  · rw [hr] at h
    obtain ⟨-, rfl, rfl⟩ := does_done h
    exact ⟨rfl, .inr rfl⟩
  · rw [hr] at h
    obtain ⟨es₁, es₂, -, ref, w₁, -, h⟩ := does_bind h
    have hsure : (gauge.bind fun _ => ref.publish.bind fun _ =>
        .done (.ok ref : Except RoomError RoomRef)).Sure :=
      sure_then fun _ => sure_then fun _ => sure_done _
    exact absurd h (@hsure _ _ _ _)

theorem leave_nowhere {user : Int32} (h : (leave user).Does w none w' es) :
    es = [] ∧ w' = { w with hub := (vacate user w.hub).2 } ∧
      ∀ room, w.hub.memberships.get? user = some room → w.hub.openRooms.get? room = none := by
  replace h := does_transact_bind h
  cases hplace : (vacate user w.hub).1 with
  | none =>
    rw [hplace] at h
    obtain ⟨-, rfl, rfl⟩ := does_done h
    refine ⟨rfl, rfl, fun room hroom => ?_⟩
    replace hplace : w.hub.memberships.get? user = none := hplace
    rw [hplace] at hroom
    cases hroom
  | some room =>
    rw [hplace] at h
    replace h := does_read_bind h
    cases hfound : w.hub.openRooms.get? room with
    | none =>
      replace hfound : (vacate user w.hub).2.openRooms.get? room = none := hfound
      rw [hfound] at h
      obtain ⟨-, rfl, rfl⟩ := does_done h
      refine ⟨rfl, rfl, fun room' hroom => ?_⟩
      replace hplace : w.hub.memberships.get? user = some room := hplace
      rw [hplace] at hroom
      cases hroom
      exact hfound
    | some ref =>
      replace hfound : (vacate user w.hub).2.openRooms.get? room = some ref := hfound
      rw [hfound] at h
      obtain ⟨es₁, es₂, -, outcome, w₁, -, h⟩ := does_bind h
      dsimp only at h
      split at h
      · obtain ⟨es₁, es₂, -, _, w₁, -, h⟩ := does_bind (does_change_bind h)
        cases (does_done h).1
      · cases (does_done h).1

theorem roomOf_does {user : Int32} {x : Option RoomRef} (h : (roomOf user).Does w x w' es) :
    w' = w ∧ es = [] := by
  replace h := does_read_bind h
  split at h
  · exact (does_done h).2
  · exact (does_read h).2

end Rooms

/-! ## Packets -/

namespace Session

variable (s : Session)

theorem sure_changeStatus (status : ClientStatus) : (s.changeStatus status).Sure := by
  refine sure_then fun ok => ?_
  split
  · exact sure_then fun _ => sure_done _
  · exact sure_then fun _ => sure_done _

/-- the achievements of all modes are loaded before any of them changes -/
theorem clean_refreshStats (ask : Hub → GameMode → Except DbError UserStats) :
    (s.refreshStats ask).Clean := by
  refine clean_read fun loaded => ?_
  cases loaded with
  | error e => exact clean_refused e
  | ok stats => exact (sure_then fun _ => sure_done _).clean

theorem clean_sendStats : s.sendStats.Clean := by
  refine Clean.bind (s.clean_refreshStats _) (fun e => ?_) fun _ => ?_
  · exact clean_refused _
  · exact sure_then fun _ => sure_then fun _ => sure_done _

theorem clean_joinRoom (room : Int32) (guess : Option String) : (s.joinRoom room guess).Clean := by
  refine Clean.bind (Rooms.clean_join room _ guess) (fun e => ?_) fun ref => ?_
  · exact clean_refused _
  · exact sure_then fun _ => sure_then fun _ => sure_then fun _ => sure_then fun _ => sure_done _

theorem clean_inRoom {task : RoomRef → Routine (Except Refusal Unit)}
    (htask : ∀ ref, (task ref).Clean) : (s.inRoom task).Clean := by
  intro w e w' es h
  obtain ⟨es₁, es₂, rfl, found, w₁, h₁, h⟩ := does_bind h
  obtain ⟨rfl, rfl⟩ := Rooms.roomOf_does h₁
  cases found with
  | none => exact (does_done h).2
  | some ref => exact htask ref h

theorem clean_changeRoom {op : RoomRef → Routine (Except RoomError Unit)}
    (hop : ∀ ref, (op ref).Clean) : (s.changeRoom op).Clean := by
  refine s.clean_inRoom fun ref => Clean.bind (hop ref) (fun e => ?_) fun _ => ?_
  · exact clean_refused _
  · exact sure_then fun _ => sure_done _

/-- The winner is looked for before the match ends, and once it has ended nothing is refused. -/
theorem clean_finishMatch (winner : Option Int32) : (s.finishMatch winner).Clean := by
  have hfinish : ∀ ref winner, (finishMatch.finishIn s ref winner).Clean := by
    intro ref winner
    refine Clean.bind (ref.clean_changeAll _) (fun e => ?_) fun _ => ?_
    · exact clean_refused _
    · cases winner with
      | none => exact sure_then fun _ => sure_done _
      | some user => exact sure_then fun _ => sure_then fun _ => sure_done _
  refine s.clean_inRoom fun ref => ?_
  cases winner with
  | none => exact hfinish ref none
  | some user =>
    refine clean_read fun members => ?_
    split
    · exact hfinish ref (some user)
    · exact clean_refused _

theorem clean_closeRoom : s.closeRoom.Clean := by
  refine s.clean_inRoom fun ref =>
    Clean.bind (Rooms.clean_remove ref.id _) (fun e => ?_) fun _ => ?_
  · exact clean_refused _
  · exact sure_then fun _ => sure_done _

theorem leaveRoom_refused {w w' : World} {e : Refusal} {es : List Effect}
    (h : s.leaveRoom.Does w (.error e) w' es) : (Rooms.leave s.id).Does w none w' es := by
  obtain ⟨es₁, es₂, rfl, found, w₁, h₁, h⟩ := does_bind h
  split at h
  · cases (does_done h).1
  rename_i hfound
  obtain ⟨-, rfl, rfl⟩ := does_done h
  obtain ⟨es₁, es₂, rfl, left, w₁, hleave, h⟩ := does_bind h₁
  rcases left with _ | ⟨ref, outcome⟩
  · obtain ⟨-, rfl, rfl⟩ := does_done h
    rwa [List.append_nil, List.append_nil]
  refine absurd ?_ hfound
  cases outcome with
  | notMember => exact (does_done h).1
  | emptied => exact (does_done h).1
  | left =>
    replace h := does_read_bind h
    obtain ⟨es₃, es₄, -, _, w₂, -, hdone⟩ := does_bind h
    exact (does_done hdone).1
  | hostPassed host =>
    replace h := does_read_bind h
    obtain ⟨es₃, es₄, -, _, w₂, -, hupdate⟩ := does_bind h
    obtain ⟨es₅, es₆, -, _, w₃, -, hdone⟩ := does_bind hupdate
    exact (does_done hdone).1

theorem clean_handle {p : ClientPacket} (hcreate : ¬ p.asksForRoom) (hleave : p ≠ .roomLeave) :
    (s.handle p).Clean := by
  have hplayer : ∀ op : Room → Except RoomError (PlayerRecord × Room), (s.changeRoom fun ref =>
      (ref.changePlayer op).bind fun x => .done (x.map fun _ => ())).Clean :=
    fun op => s.clean_changeRoom fun ref => (ref.clean_changePlayer op).map fun _ => ()
  cases p with
  | login name password => exact clean_refused _
  | ping => exact (sure_then fun _ => sure_done _).clean
  | pong => exact (sure_then fun _ => sure_done _).clean
  | status status => exact (s.sure_changeStatus status).clean
  | processes list => exact (sure_then fun _ => sure_done _).clean
  | statsRequest => exact s.clean_sendStats
  | roomCreate => exact absurd rfl hcreate
  | roomJoin room password => exact s.clean_joinRoom room password
  | roomLeave => exact absurd rfl hleave
  | roomReady ready => exact hplayer (·.setReady s.id ready)
  | roomHasMap hasMap => exact hplayer (·.setHasMap s.id hasMap)
  | roomMods modifiers => exact hplayer (·.setModifiers s.id modifiers)
  | roomSettings patch => exact s.clean_changeRoom fun ref => ref.clean_changeListing _
  | roomMap map => exact s.clean_changeRoom fun ref => ref.clean_changeAll _
  | roomStart => exact s.clean_changeRoom fun ref => ref.clean_changeListing _
  | roomFinish winner => exact s.clean_finishMatch winner
  | roomHost user => exact s.clean_changeRoom fun ref => ref.clean_changeListing _
  | roomClose => exact s.clean_closeRoom

theorem createRoom_refused {request : RoomRequest} {w w' : World} {e : Refusal}
    {es : List Effect} (h : (s.createRoom request).Does w (.error e) w' es) :
    es = [] ∧ (w' = w ∨ w' = { w with hub := (Rooms.takeId w.hub).2 }) := by
  replace h := does_read_bind h
  split at h
  · obtain ⟨-, rfl, rfl⟩ := does_done h
    exact ⟨rfl, .inl rfl⟩
  obtain ⟨es₁, es₂, rfl, made, w₁, h₁, h⟩ := does_bind h
  cases made with
  | error e₁ =>
    obtain ⟨-, rfl, rfl⟩ := does_done h
    rw [List.append_nil]
    exact Rooms.create_refused h₁
  | ok ref =>
    replace h := does_read_bind h
    obtain ⟨es₃, es₄, -, _, w₂, -, hdone⟩ := does_bind h
    cases (does_done hdone).1

end Session

/-! ## Memory -/

/-- What a refused packet of a session leaves of memory.  All is as it was but the next id, if the
packet asks for a room, and a note of the user that leads nowhere, if it wants to leave. -/
structure Hub.Spared (s : Session) (p : ClientPacket) (h h' : Hub) : Prop where
  same : h' = { h with nextRoom := h'.nextRoom, memberships := h'.memberships }
  next : h'.nextRoom = h.nextRoom ∨ (p.asksForRoom ∧ h'.nextRoom = h.nextRoom + 1)
  memberships : h'.memberships = h.memberships ∨ (p = .roomLeave ∧
    h'.memberships = h.memberships.erase s.id ∧
      ∃ room, h.memberships.get? s.id = some room ∧ h.openRooms.get? room = none)

theorem Hub.spared_refl (s : Session) (p : ClientPacket) (h : Hub) : h.Spared s p h :=
  ⟨rfl, .inl rfl, .inl rfl⟩

theorem Hub.Spared.notes {s : Session} {p : ClientPacket} {h h' : Hub} (hs : h.Spared s p h')
    (hl : h.NotesValid) : h'.memberships = h.memberships := by
  rcases hs.memberships with hsame | ⟨-, -, room, hroom, hnone⟩
  · exact hsame
  · obtain ⟨ref, hr, -⟩ := hl _ _ hroom
    rw [hnone] at hr
    cases hr

namespace Session

variable {s : Session} {p : ClientPacket} {e : Refusal} {w w' : World} {es : List Effect}

theorem handle_refused (h : (s.handle p).Does w (.error e) w' es) :
    es = [] ∧ w' = { w with hub := w'.hub } ∧ w.hub.Spared s p w'.hub := by
  by_cases hcreate : p.asksForRoom
  · cases p with
    | roomCreate name password maxPlayers map =>
      obtain ⟨hes, rfl | rfl⟩ := s.createRoom_refused h
      · exact ⟨hes, rfl, w'.hub.spared_refl s _⟩
      · exact ⟨hes, rfl, rfl, .inr ⟨rfl, rfl⟩, .inl rfl⟩
    | _ => cases hcreate
  by_cases hleave : p = .roomLeave
  · subst hleave
    obtain ⟨hes, rfl, hnone⟩ := Rooms.leave_nowhere (s.leaveRoom_refused h)
    refine ⟨hes, rfl, rfl, .inl rfl, ?_⟩
    cases hplace : w.hub.memberships.get? s.id with
    | none => exact .inl (Table.erase_of_none hplace)
    | some room => exact .inr ⟨rfl, rfl, room, rfl, hnone room hplace⟩
  · obtain ⟨rfl, hes⟩ := s.clean_handle hcreate hleave h
    exact ⟨hes, rfl, w'.hub.spared_refl s p⟩

/-- what is counted when a packet is refused -/
def refusalNotes (p : ClientPacket) (e : Refusal) : List Effect :=
  [.note (.packetRefused p.kind e.code), .note (.packetHandled p.kind)]

theorem dispatch_refused (h : (s.dispatch p).Does w (.error e) w' es) :
    es = refusalNotes p e ∧ w' = { w with hub := w'.hub, metrics := w'.metrics } ∧
      w.hub.Spared s p w'.hub := by
  obtain ⟨es₁, es₂, rfl, x, w₁, h₁, h⟩ := does_bind h
  cases x with
  | error e₁ =>
    obtain ⟨es₃, rfl, hcount⟩ := does_emit_bind h
    obtain ⟨es₄, rfl, hdone⟩ := does_emit_bind hcount
    obtain ⟨he, rfl, rfl⟩ := does_done hdone
    cases he
    obtain ⟨rfl, hw, hspared⟩ := handle_refused h₁
    refine ⟨rfl, ?_, hspared⟩
    rw [hw]
    rfl
  | ok _ =>
    obtain ⟨es₃, rfl, hdone⟩ := does_emit_bind h
    cases (does_done hdone).1

end Session

/-! ## All courses -/

section Course

variable {database : Database} {timeouts : Timeouts} {flood : FloodLimits} {clock : Int64}
  {steady : Nat → Prop} {start w : World} {past : List Act} {outcomes : List Outcome}

/-- Whatever has been done with a server that had just started, amid any failures of the store and
of lines, a packet that is refused is only counted: it calls no store and sends nothing, and memory
is as it was but for the next id.  A note that leads nowhere is taken out, but there is none as long
as at most `2 ^ 32` ids of rooms have been given away.  If nothing else happens meanwhile, the store
and all lines are as they were, too. -/
theorem refused_packets_change_nothing
    (h : Course Act.Proper (.sparing steady) start past outcomes w)
    (hstart : start.hub = .start database timeouts flood clock) (s : Session) (p : ClientPacket)
    (e : Refusal) :
    (∀ w' es, (s.dispatch p).DoesAmid (.sparing steady) w (.error e) w' es →
      es = Session.refusalNotes p e ∧ w.hub.Spared s p w'.hub ∧
        (idsGiven past outcomes ≤ UInt32.size →
          w'.hub.memberships = w.hub.memberships)) ∧
    (∀ w' es, (s.dispatch p).Does w (.error e) w' es →
      w' = { w with hub := w'.hub, metrics := w'.metrics }) := by
  refine ⟨fun w' es hw => ?_, fun w' es hd => (Session.dispatch_refused hd).2.1⟩
  obtain ⟨v, hv, -, hcourse⟩ := h.ofKnown.afresh hstart
  obtain ⟨v', hdoes, hv'⟩ := (s.oblivious_dispatch p).does hw hv
  obtain ⟨hes, -, hspared⟩ := Session.dispatch_refused hdoes
  rw [hv, hv'] at hspared
  exact ⟨hes, hspared, fun hfew => hspared.notes (hv ▸ hcourse.notesValid hfew)⟩

end Course

open Act in
/-- When an id comes round, a member of the older room is noted to be in a room that cannot be found
once the newer one is gone.  The note is taken out by a packet that is refused. -/
theorem refused_packets_change_nothing_rollover :
    ∃ w w', Course Proper (.sparing fun _ => True) threeLines
        (rollover ++ [packet guest .roomLeave]) (rolledOver ++ [.packet (.ok ())]) w ∧
      (host.dispatch .roomLeave).Does w (.error .notInRoom) w'
        (Session.refusalNotes .roomLeave .notInRoom) ∧
      w.hub.memberships.get? host.id = some 1 ∧ w'.hub.memberships.get? host.id = none := by
  let deserted : World := (packet guest .roomLeave).task.after 100 overtaken
  obtain ⟨v, hcourse, hv⟩ := course_rollover (.sparing fun _ => True)
  have hmay : Proper (known rolledOver) v (packet guest .roomLeave) := by
    show guest ∈ known rolledOver
    rw [rolledOver, List.append_assoc]
    exact guest_known _
  have hrun : ((packet guest .roomLeave).task.run 100 overtaken).map Prod.fst =
      some (.packet (.ok ())) := rfl
  obtain ⟨w, hcourse', hw⟩ := hcourse.after_alike hv 100 hmay hrun
  have hends : (host.dispatch .roomLeave).Ends deserted (.error .notInRoom)
      ((host.dispatch .roomLeave).after 60 deserted) := ends_after rfl
  obtain ⟨es, hgo⟩ := hends.does
  obtain ⟨rfl, -, -⟩ := Session.dispatch_refused hgo
  obtain ⟨w', hdoes, hw'⟩ := hw.does (host.oblivious_dispatch _) hgo
  refine ⟨w, w', hcourse', hdoes, ?_, ?_⟩
  · rw [← hw.memory]
    rfl
  · rw [← hw'.memory]
    rfl

open Act in
/-- the guest is in the room already, and is not let in once more -/
theorem refused_packets_change_nothing_twice : ∃ w',
    (guest.dispatch (.roomJoin 1 none)).Does (following threeLines evening)
      (.error (.room .alreadyMember)) w'
      (Session.refusalNotes (.roomJoin 1 none) (.room .alreadyMember)) ∧
    w' = { following threeLines evening with hub := w'.hub, metrics := w'.metrics } ∧
    (following threeLines evening).hub.Spared guest (.roomJoin 1 none) w'.hub ∧
    w'.hub.memberships = (following threeLines evening).hub.memberships := by
  have hends : (guest.dispatch (.roomJoin 1 none)).Ends (following threeLines evening)
      (.error (.room .alreadyMember))
      ((guest.dispatch (.roomJoin 1 none)).after 60 (following threeLines evening)) :=
    ends_after rfl
  obtain ⟨es, hdoes⟩ := hends.does
  obtain ⟨hgo, hrest⟩ := refused_packets_change_nothing
    (course_evening (.sparing fun _ => True)).proper rfl guest (.roomJoin 1 none)
      (.room .alreadyMember)
  obtain ⟨rfl, hspared, hnotes⟩ := hgo _ _ hdoes.amid
  exact ⟨_, hdoes, hrest _ _ hdoes, hspared, hnotes (by decide)⟩

end RhythmLobby
