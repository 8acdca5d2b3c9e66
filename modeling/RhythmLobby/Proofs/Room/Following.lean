import RhythmLobby.Proofs.Attendance
import RhythmLobby.Proofs.Room.News

/-!
# Clients know their rooms

A client that follows what it hears of rooms knows the room that its user is in.

* `Routine.Aside.keeps`      what has nothing to do with rooms;
* `Session.keeps_dispatch`   whatever a session asks for;
* `RoomView.shows_act`       all acts;
* `views_show_rooms`         the view of every session on a steady line, after any acts.
-/

namespace RhythmLobby
open Routine

/-! ## Packets -/

/-- whatever has nothing to do with rooms keeps all views right -/
theorem Routine.Aside.keeps {α : Type} {r : Routine α} {x : α} {w w' : World} {es : List Effect}
    (hr : r.Aside) (h : r.Does w x w' es) (s : Session) :
    RoomView.replica.Keeps s w.hub es w'.hub := by
  have hsame : w'.hub.directory = w.hub.directory ∧ w'.hub.openRooms = w.hub.openRooms ∧
      w'.hub.rooms = w.hub.rooms := by
    refine Within.induction (P := fun v => v.hub.directory = w.hub.directory ∧
      v.hub.openRooms = w.hub.openRooms ∧ v.hub.rooms = w.hub.rooms) hr ?_ ?_ h.ends ⟨rfl, rfl, rfl⟩
    · exact fun v h hv hm => ⟨hm.1.trans hv.1, hm.2.1.trans hv.2.1, hm.2.2.trans hv.2.2⟩
    · intro v e hv _
      rw [Effect.perform_hub]
      exact hv
  refine Hub.keeps_of_quiet (Hub.finds_congr hsame.1).mp hsame.2.1 hsame.2.2 fun event hevent => ?_
  obtain ⟨e, he, hevent⟩ := mem_heardAt.mp hevent
  exact (Within.effects hr h e he _ event hevent).2

namespace Session

variable {w w' : World} {es : List Effect} {x : Except Refusal Unit}

variable {s : Session}

/-- Whatever a session asks for that is found, everybody who is in a room then knows it. -/
theorem keeps_handle {p : ClientPacket} (ht : w.hub.WellFormed) (hs : w.hub.Finds s)
    (h : (s.handle p).Does w x w' es) (s' : Session) :
    RoomView.replica.Keeps s' w.hub es w'.hub := by
  have hplayer : ∀ {op : Room → Except RoomError (PlayerRecord × Room)},
      (∀ r x r', op r = .ok (x, r') → r'.ids = r.ids) →
      (s.changeRoom fun ref => (ref.changePlayer op).bind fun x =>
        .done (x.map fun _ => ())).Does w x w' es → RoomView.replica.Keeps s' w.hub es w'.hub :=
    fun hop h => keeps_changeRoom (fun ref => RoomRef.edits_changePlayer hop _) ht h s'
  have hlisting : ∀ {op : Room → Except RoomError Room},
      (∀ r r', op r = .ok r' → r.ListingChange r') →
      (s.changeRoom (·.changeListing op)).Does w x w' es →
        RoomView.replica.Keeps s' w.hub es w'.hub :=
    fun hop h => keeps_changeRoom (fun ref => RoomRef.edits_changeListing fun r r' hok =>
      congrArg (List.map Member.id) (hop r r' hok).members) ht h s'
  cases p with
  | roomCreate name password maxPlayers map => exact keeps_createRoom ht hs h s'
  | roomJoin room password => exact keeps_joinRoom ht hs h s'
  | roomLeave => exact keeps_leaveRoom ht h s'
  | roomReady ready =>
    exact hplayer (fun _ _ _ hok =>
      Room.ids_modifyMember (f := fun m => { m with ready := ready }) (fun _ => rfl) hok) h
  | roomHasMap hasMap =>
    exact hplayer (fun _ _ _ hok =>
      Room.ids_modifyMember (f := fun m => { m with hasMap := hasMap }) (fun _ => rfl) hok) h
  | roomMods modifiers =>
    exact hplayer (fun _ _ _ hok =>
      Room.ids_modifyMember (f := fun m => { m with modifiers := modifiers }) (fun _ => rfl) hok) h
  | roomSettings patch => exact hlisting (fun _ _ => Room.updateSettings_ok) h
  | roomMap map =>
    exact keeps_changeRoom (fun ref => RoomRef.edits_changeAll fun _ _ hok =>
      (Room.changeMap_ok hok).ids) ht h s'
  | roomStart => exact hlisting (fun _ _ => Room.start_ok) h
  | roomFinish winner => exact keeps_finishMatch ht h s'
  | roomHost user => exact hlisting (fun _ _ => Room.transferHost_ok) h
  | roomClose => exact keeps_closeRoom ht h s'
  | _ => exact (s.aside_handle (by exact not_false)).keeps h s'

theorem keeps_dispatch {p : ClientPacket} (ht : w.hub.WellFormed) (hs : w.hub.Finds s)
    (h : (s.dispatch p).Does w x w' es) (s' : Session) :
    RoomView.replica.Keeps s' w.hub es w'.hub := by
  obtain ⟨count, heq, hcount⟩ := s.dispatch_counted p
  rw [heq] at h
  obtain ⟨es₁, es₂, rfl, y, w₁, h₁, h₂⟩ := does_bind h
  exact (keeps_handle ht hs h₁ s').after ((hcount y).keeps h₂ s')

end Session

/-! ## Users come online and go -/

section Presence

variable {known : List Session} {n : Nat} {w w' : World} {es : List Effect}

theorem World.Kept.wellFormed {astray : Int32 → Prop} (hk : w.Kept (· ∈ known) n)
    (hl : w.hub.Lined known) (hp : w.hub.Placed astray) : w.hub.WellFormed where
  coherent := hk.sessions.orderly.coherent
  apart := hl.directory_apart hk.sessions.orderly.coherent
  numbered := by
    obtain ⟨m, -, hb, -⟩ := hk.rooms
    exact ⟨m, hb.numbered⟩
  allOpen := by
    obtain ⟨-, -, -, ho⟩ := hk.rooms
    exact ho
  noted := hp.noted

theorem RoomNews.unnoted_leaveCurrent {user : Int32} {x : Bool}
    (h : (leaveCurrent user).Ends w x w') : ¬ w'.hub.Noted user := by
  obtain ⟨left, w₁, h₁, hsame⟩ := leaveCurrent_ends h
  have hnote : w₁.hub.memberships.get? user = none := by
    rcases Rooms.leave_ends h₁ with ⟨-, hhub, -⟩ | ⟨_, _, _, _, -, -, -, -, hhub⟩
    · rw [hhub]
      exact (Hub.get?_vacate user user w.hub).trans (if_pos rfl)
    · rw [hhub]
      split
      · exact (Hub.get?_vacate user user w.hub).trans (if_pos rfl)
      · exact (Hub.get?_vacate user user w.hub).trans (if_pos rfl)
  rw [hsame]
  exact fun hnoted => hnoted hnote

/-- A user whose session is torn down leaves its room, and is noted nowhere then. -/
theorem RoomView.keeps_disconnect {token : String} {x : Unit} (ht : w.hub.WellFormed)
    (h : (disconnect token).Does w x w' es) :
    (∀ s, replica.Keeps s w.hub es w'.hub) ∧
      ∀ s, w.hub.directory.ofToken token = some s → ¬ w'.hub.Noted s.id := by
  rcases disconnect_does ht.coherent h with
    ⟨hnone, rfl, rfl⟩ | ⟨s₀, d, y, w₁, es₁, es₂, htoken, hr, hleave, hhub, rfl, hes⟩
  · refine ⟨fun s => replica.keeps_nothing s _, fun s hs => ?_⟩
    rw [hnone] at hs
    cases hs
  -- while its user leaves the room, the session is found no more
  let h₀ : Hub := ({ w.hub with directory := d }).modifyState s₀ fun state =>
    { state with retired := true }
  have ht₀ : h₀.WellFormed := ht.sameRooms ⟨rfl, rfl, rfl⟩ rfl (ht.coherent.removed hr)
    (Directory.Apart.removed ht.apart hr)
  have hgone : ∀ s, replica.Keeps s w.hub [] h₀ := fun s =>
    Hub.keeps_of_same (fun hfound => ((Hub.finds_removed hr).mp hfound).1) rfl rfl
  have hquiet : ∀ n, ∀ event ∈ heardAt n es₂, ¬ event.OfRoom := by
    intro n event hevent
    rw [hes, List.mem_append, LineEvent.mem_at] at hevent
    rcases hevent with hevent | ⟨-, rfl⟩
    · split at hevent
      · obtain ⟨_, -, hevent⟩ := List.mem_flatMap.mp ((heardAt_singleton n _).symm ▸ hevent)
        rw [(LineEvent.mem_at.mp hevent).2]
        exact not_false
      · cases hevent
    · exact not_false
  refine ⟨fun s => ?_, fun s hs => ?_⟩
  · have hleft := RoomNews.keeps_leaveCurrent (w := { w with hub := h₀ }) ht₀ hleave
    have hrest : ∀ s, replica.Keeps s w₁.hub es₂ w'.hub := fun s =>
      Hub.keeps_of_quiet (hhub ▸ id) (hhub ▸ rfl) (hhub ▸ rfl) (hquiet _)
    exact ((hgone s).after (hleft s)).after (hrest s)
  · have hsame := hr.present
    rw [htoken, hs] at hsame
    cases hsame
    rw [hhub]
    exact RoomNews.unnoted_leaveCurrent hleave.ends

theorem Session.quiet_greet {s : Session} {x : Except RegistryError Session}
    (h : s.greet.Does w x w' es) : ∀ n, ∀ event ∈ heardAt n es, ¬ event.OfRoom := by
  obtain ⟨-, -, hgreeted⟩ := greet_does h
  intro n event hevent
  rw [hgreeted n] at hevent
  simp only [List.mem_append, LineEvent.mem_at, heardAt_singleton, Effect.at, List.mem_flatMap]
    at hevent
  rcases hevent with ⟨-, rfl⟩ | ⟨-, rfl⟩ | ⟨-, -, -, rfl⟩
  · exact not_false
  · exact not_false
  · exact not_false

section Entering

variable {h : Hub} {profile : Profile} {token : String} {line : Nat} {s : Session} {d : Directory}

theorem Hub.WellFormed.entering (ht : h.WellFormed) (hl : h.Lined known) (hline : s.line = line)
    (hfree : ∀ s' ∈ known, s'.line ≠ line) (hd : h.directory.Entered s d) :
    (h.entering profile token line d).WellFormed := by
  refine ht.sameRooms ⟨rfl, rfl, rfl⟩ rfl (ht.coherent.entered hd)
    (Directory.Apart.entered ht.apart hd fun hu => ?_)
  rw [hline]
  exact hfree _ (hl.found (Hub.finds_of_ofUser ht.coherent hu))

/-- of the other sessions none is found that was not found before -/
theorem RoomView.keeps_entering (hline : s.line = line) (hfree : ∀ s' ∈ known, s'.line ≠ line)
    (hd : h.directory.Entered s d) :
    ∀ s' ∈ known, replica.Keeps s' h [] (h.entering profile token line d) := by
  refine fun s' hs' => Hub.keeps_of_same (fun hfound => ?_) rfl rfl
  have hfound : d.ofUser s'.id = some s' := hfound
  rw [hd.ofUser] at hfound
  split at hfound
  · cases hfound
    exact absurd hline (hfree _ hs')
  · exact hfound

end Entering

theorem RoomView.keeps_error (h : Hub) (message : String) (s s' : Session) :
    replica.Keeps s' h [.deliver (.error message) s] h := by
  refine Hub.keeps_of_quiet id rfl rfl fun event hevent => ?_
  rw [heardAt_singleton] at hevent
  rw [(LineEvent.mem_at.mp hevent).2]
  exact not_false

/-- Of a login nobody hears news of rooms but those of an older session of the user, whose room it
leaves.  The new session is in no room. -/
theorem RoomView.shows_login {profile : Profile} {token : String} {line : Nat} {s : Session}
    (hk : w.Kept (· ∈ known) n) (hl : w.hub.Lined known) (hp : w.hub.Placed fun _ => False)
    (hfree : ∀ s' ∈ known, s'.line ≠ line) (h : (login profile token line).Does w (.ok s) w' es) :
    (∀ s' ∈ known, replica.Keeps s' w.hub es w'.hub) ∧ ∀ view, replica.Shows w'.hub s view := by
  have ht := hk.wellFormed hl hp
  have hline := login_line ht.coherent h
  have hplaced := placed_login hk.rooms ht.coherent hp h.ends
  rcases login_does ht.coherent h with
    ⟨hx, -⟩ | ⟨s', d, w₁, es₁, es₂, hs, hx, hd, hgreet, rfl, hold⟩
  · cases hx
  cases hx
  obtain ⟨-, hmemory, -⟩ := Session.greet_does hgreet
  have ht₁ : (w.hub.entering profile token line d).WellFormed := ht.entering hl hline hfree hd
  have hentered :
      ∀ s' ∈ known, replica.Keeps s' w.hub [] (w.hub.entering profile token line d) :=
    keeps_entering hline hfree hd
  have hbefore : (∀ s' ∈ known, replica.Keeps s' w.hub es₁ w₁.hub) ∧ ¬ w₁.hub.Noted s.id := by
    cases ho : w.hub.directory.ofUser s.id with
    | none =>
      rw [ho] at hold
      obtain ⟨rfl, rfl⟩ := hold
      exact ⟨hentered, fun hnoted => (hp.of_noted hnoted).elim (· ho) id⟩
    | some old =>
      rw [ho] at hold
      obtain ⟨w₀, es₀, hhub, -, hpresent, hdisconnect, rfl⟩ := hold
      have hid : old.id = s.id := ht.coherent.user ho
      rw [← hhub] at ht₁ hentered
      obtain ⟨hkeeps, hunnoted⟩ := keeps_disconnect ht₁ hdisconnect
      refine ⟨fun s' hs' => ?_, hid ▸ hunnoted old (by rw [hhub]; exact hpresent)⟩
      exact (hentered s' hs').after ((keeps_error w₀.hub _ old s').after (hkeeps s'))
  have hafter : ∀ s', replica.Keeps s' w₁.hub es₂ w'.hub := fun s' =>
    Hub.keeps_of_quiet (hmemory ▸ id) (hmemory ▸ rfl) (hmemory ▸ rfl) (s.quiet_greet hgreet _)
  refine ⟨fun s' hs' => (hbefore.1 s' hs').after (hafter s'), fun view _ id ref hr hmem => ?_⟩
  rw [hmemory] at hr hmem hplaced
  exact absurd (Hub.noted_of_place (hplaced.noted hr hmem)) hbefore.2

theorem RoomView.rule_keeps : Act.Rule known n (fun h => h.Placed fun _ => False)
    fun h es h' => ∀ s, replica.Keeps s h es h' where
  chained := replica.chained_keeps
  aside hr h := hr.keeps h
  warned h s s' := keeps_error h _ s s'
  close hk hl hp h :=
    have hfewer := hp.fewer (RoomNews.fewer_closeRoom hk.rooms hp h.ends)
    ⟨hfewer.mono fun _ ha => ha.1.elim, RoomNews.keeps_closeRoom (hk.wellFormed hl hp) h⟩
  disconnect hk hl hp h :=
    ⟨placed_disconnect hk.rooms hk.sessions.orderly.coherent hp h.ends,
      (keeps_disconnect (hk.wellFormed hl hp) h).1⟩

theorem RoomView.shows_act {act : Act} {o : Outcome} {u v : World} (hmay : act.Timely known u)
    (hu : v.hub = u.hub) (hk : v.Kept (· ∈ known) n) (hl : v.hub.Lined known)
    (hp : v.hub.Placed fun _ => False)
    (h : act.task.Does v o w' es) :
    (∀ s ∈ known, replica.Keeps s v.hub es w'.hub) ∧
      ∀ s view, o.session? = some s →
        replica.Shows w'.hub s (replica.after view (heardAt s.line es)) := by
  have ht := hk.wellFormed hl hp
  cases ho : o.session? with
  | some s =>
    obtain ⟨profile, token, line, rfl, hlogin⟩ := Act.brings h ho
    obtain ⟨hkeeps, hnew⟩ := shows_login hk hl hp hmay.1.1 hlogin
    refine ⟨hkeeps, fun s' view hs' => ?_⟩
    cases hs'
    exact hnew _
  | none =>
    refine ⟨fun s _ => rule_keeps.tells hk hl hp h ho (fun s' p x hact hpacket => ?_) s,
      fun s view hs => ?_⟩
    · cases hact
      exact Session.keeps_dispatch ht (hu ▸ hmay.2) hpacket
    · cases hs

end Presence

/-! ## All acts -/

section Course

variable {database : Database} {timeouts : Timeouts} {flood : FloodLimits} {clock : Int64}
  {steady : Nat → Prop} {start w : World} {past : List Act} {outcomes : List Outcome}

/-- As long as packets come in time, only those who are online are in rooms. -/
theorem Course.placed_timely (h : Course Act.Timely (.sparing steady) start past outcomes w)
    (hstart : start.hub = .start database timeouts flood clock) :
    w.hub.Placed fun _ => False := by
  induction h using Course.induction with
  | nil =>
    rw [hstart]
    exact ⟨nofun, nofun⟩
  | @snoc past outcomes w w' act o es hpast hmay hgo ih =>
    obtain ⟨v, hv, hkept⟩ := hpast.proper.ofKnown.kept_amid hstart
    obtain ⟨v', hdoes, hv'⟩ := act.oblivious_task.does hgo hv
    rw [← hv']
    have hofKnown : act.OfKnown (known outcomes) v := (hmay.1.ofKnown :)
    rcases Act.placed hdoes hofKnown hkept (hv ▸ ih) with
      hplaced | ⟨s, p, rfl, -, -, he, hends, hreceived⟩
    · exact hplaced
    · refine hreceived.placed.mono fun user hu => .inl ?_
      rcases hu with hu | rfl
      · exact hu.elim
      rw [s.online_dispatch he hkept.rooms.reliable hends s.id, hv, Hub.Online, hmay.2]
      exact Option.some_ne_none s

/-- After any acts amid failures of the store and of lines, where sessions send packets only while
they are found: on a line that never failed, the view that the frames so far give is the room that
the user is in, as long as the session is found.  The names of those who have joined since the last
snapshot may be missing. -/
theorem views_show_rooms (h : Course Act.Timely (.sparing steady) start past outcomes w)
    (hstart : start.hub = .start database timeouts flood clock)
    (hsteady : ∀ n l, steady n → start.lines[n]? = some l → l.state = .healthy)
    {s : Session} (hs : w.hub.directory.ofUser s.id = some s) (hline : steady s.line) {id : Int32}
    {ref : RoomRef} (hr : w.hub.openRooms.get? id = some ref) (hmem : s.id ∈ (w.hub.room ref).ids) :
    ∃ l v, w.lines[s.line]? = some l ∧ l.frames.foldl RoomView.follow none = some v ∧
      v.Shows (w.hub.room ref).snapshot := by
  have hlined := (h.proper.linesMatch hstart).lined
  obtain ⟨l, hl, hshows⟩ := h.replicates RoomView.replica (fun _ _ _ h => h.1) hstart hsteady
    (fun hpast hmay hv hk hl hdoes => RoomView.shows_act hmay hv hk hl
      (hv ▸ hpast.placed_timely hstart) hdoes) (hlined.found hs) hline
  obtain ⟨v, hv, hview⟩ := hshows hs id ref hr hmem
  exact ⟨l, v, hl, hv, hview⟩

end Course

/-- the host has come online again, and the guest knows that the room is its own now -/
theorem views_show_rooms_inherited :
    ∃ l v, (Act.following Act.threeLines Act.evening).lines[1]? = some l ∧
      l.frames.foldl RoomView.follow none = some v ∧
      v.Shows ((Act.following Act.threeLines Act.evening).hub.room ⟨0, 1⟩).snapshot :=
  have hopen : (Act.following Act.threeLines Act.evening).hub.openRooms.get? 1 = some ⟨0, 1⟩ := rfl
  views_show_rooms (s := Act.guest) (Act.course_evening (.sparing fun _ => True)) rfl
    (fun _ _ _ => Act.threeLines_healthy) rfl trivial hopen (by decide)

end RhythmLobby
