import RhythmLobby.Proofs.Room.Closing
import RhythmLobby.Proofs.Room.Notes
import RhythmLobby.Proofs.Session.Roster

/-!
# A shutdown leaves nothing behind

All rooms close, and then everybody who is online is dismissed, one after another.

* `Final`                 whoever is warned that the server stops is hung up on;
* `disconnect_deserted`   a teardown while no room is open;
* `dismiss_does`          a session is warned and torn down, and the others hear of it;
* `dismiss_each`          many sessions, one after another;
* `Hub.Dismissal`         what a session hears of it all;
* `shutdown_does`         what is left in memory, and what everybody hears;
* `shutdown_ends`         a shutdown comes to an end;
* `Course.unwarned`       nobody is warned on a line that stays open;
* `Course.dismissal_recorded`   what a session hears comes through on a steady line;
* `shutdown_leaves_nothing`, `shutdown_leaves_nothing_rollover`   what is left, before and after
  the ids of rooms repeat.
-/

namespace RhythmLobby
open Cache Routine

/-! ## Warnings -/

/-- a session is told that the server stops -/
def warning : LineEvent := .frame (.error "server is shutting down")

/-- whoever is warned is hung up on -/
def Final (es : List Effect) : Prop := ∀ n, warning ∈ heardAt n es → .hangUp ∈ heardAt n es

theorem final_nil : Final [] := fun _ hmem => absurd hmem List.not_mem_nil

theorem final_of_unwarned {es : List Effect} (h : ∀ n, warning ∉ heardAt n es) : Final es :=
  fun n hmem => absurd hmem (h n)

theorem Final.append {es es' : List Effect} (h : Final es) (h' : Final es') :
    Final (es ++ es') := by
  intro n hmem
  rw [heardAt_append, List.mem_append] at hmem ⊢
  exact hmem.imp (h n) (h' n)

theorem Routine.Discreet.unwarned {α : Type} {r : Routine α} {x : α} {w w' : World}
    {es : List Effect} (hr : r.Discreet) (h : r.Does w x w' es) (n : Nat) :
    warning ∉ heardAt n es :=
  fun hmem => (hr.does h).2 n _ hmem rfl

theorem unwarned_disconnect {token : String} {x : Unit} {w w' : World} {es : List Effect}
    (hd : w.hub.directory.Coherent) (h : (disconnect token).Does w x w' es) (n : Nat) :
    warning ∉ heardAt n es := by
  rcases disconnect_does hd h with ⟨-, -, rfl⟩ | ⟨s, d, _, w₁, es₁, es₂, -, -, hleave, -, rfl, hes⟩
  · exact List.not_mem_nil
  intro hmem
  rw [heardAt_append, hes, List.mem_append, List.mem_append, LineEvent.mem_at] at hmem
  rcases hmem with hmem | hmem | ⟨-, hmem⟩
  · exact (RoomNews.discreet_leaveCurrent s.id).unwarned hleave n hmem
  · split at hmem
    · rw [heardAt_singleton] at hmem
      obtain ⟨_, -, hmem⟩ := List.mem_flatMap.mp hmem
      cases (LineEvent.mem_at.mp hmem).2
    · cases hmem
  · cases hmem

theorem unwarned_login {profile : Profile} {token : String} {line : Nat}
    {x : Except RegistryError Session} {w w' : World} {es : List Effect} (hh : w.hub.Orderly)
    (h : (login profile token line).Does w x w' es) (n : Nat) : warning ∉ heardAt n es := by
  cases x with
  | error e =>
    rcases login_does hh.coherent h with ⟨-, rfl, -⟩ | ⟨_, _, _, _, _, -, hx, -⟩
    · exact List.not_mem_nil
    · cases hx
  | ok s =>
    obtain ⟨w₁, es₁, es₂, hgreet, rfl, hquiet⟩ := Roster.quiet_before_greet hh h
    intro hmem
    rw [heardAt_append, (Session.greet_does hgreet).2.2 n] at hmem
    simp only [List.mem_append, LineEvent.mem_at, heardAt_singleton, Effect.at, List.mem_flatMap]
      at hmem
    rcases hmem with hmem | ⟨-, hmem⟩ | ⟨-, hmem⟩ | ⟨-, -, -, hmem⟩
    · exact hquiet n _ hmem rfl
    · cases hmem
    · cases hmem
    · cases hmem

/-! ## One session -/

/-- nobody hears of a user who leaves while no room is open -/
theorem RoomNews.quiet_leaveCurrent {user : Int32} {x : Bool} {w w' : World} {es : List Effect}
    (hnone : ∀ id, w.hub.openRooms.get? id = none) (h : (leaveCurrent user).Does w x w' es) :
    (∀ n, heardAt n es = []) ∧ w'.hub = (Rooms.vacate user w.hub).2 := by
  obtain ⟨left, w₁, es₁, h₁, hsame, rfl⟩ := leaveCurrent_does h
  rcases Rooms.leave_ends h₁.ends with ⟨rfl, hhub, -⟩ | ⟨room, _, _, _, -, hr, -⟩
  · refine ⟨fun n => ?_, hsame.trans hhub⟩
    rw [show farewell user w₁.hub none = [] from rfl, List.append_nil]
    exact ((Rooms.mute_leave user).does h₁).2 n
  · rw [hnone] at hr
    cases hr

theorem disconnect_deserted {s : Session} {x : Unit} {w w' : World} {es : List Effect}
    (hd : w.hub.directory.Coherent) (hnone : ∀ id, w.hub.openRooms.get? id = none)
    (hs : w.hub.Finds s) (h : (disconnect s.token).Does w x w' es) :
    w.hub.directory.Removed s w'.hub.directory ∧ (∀ id, w'.hub.openRooms.get? id = none) ∧
      ∀ n, heardAt n es = heardAt n [.fanOut (.userDisconnected s.id) w'.hub.directory.all] ++
        LineEvent.hangUp.at s.line n := by
  rcases disconnect_does hd h with
    ⟨hlost, -⟩ | ⟨s₀, d, _, w₁, es₁, es₂, htoken, hr, hleave, hmemory, rfl, hheard⟩
  · rw [hd.known hs] at hlost
    cases hlost
  have hsame : s₀ = s := by
    have hpresent := hr.present
    rw [htoken, hd.known hs] at hpresent
    exact (Option.some.inj hpresent).symm
  subst hsame
  obtain ⟨hquiet, hleft⟩ := RoomNews.quiet_leaveCurrent (w := { w with
    hub := ({ w.hub with directory := d }).modifyState s₀ fun state =>
      { state with retired := true } }) hnone hleave
  have hremoved : w.hub.directory.Removed s₀ w'.hub.directory := by
    rw [hmemory, hleft]
    exact hr
  have hgone : w'.hub.directory.ofUser s₀.id = none := by
    rw [hremoved.ofUser, if_pos ⟨rfl, hs⟩]
  refine ⟨hremoved, fun id => ?_, fun n => ?_⟩
  · rw [hmemory, hleft]
    exact hnone id
  · rw [heardAt_append, hquiet, hheard, if_pos hgone, List.nil_append]

section Dismiss

variable {known : List Session} {n : Nat} {astray : Int32 → Prop} {w w' : World} {x : Unit}
  {es : List Effect}

/-- A session is told that the server stops, and is torn down.  All others that are found hear that
its user has gone. -/
theorem dismiss_does {s : Session} (hw : w.InOrder known n astray)
    (hnone : ∀ id, w.hub.openRooms.get? id = none) (hs : w.hub.Finds s)
    (h : (dismiss s).Does w x w' es) :
    w'.InOrder known n astray ∧ (∀ id, w'.hub.openRooms.get? id = none) ∧
      (∀ s', w'.hub.Finds s' ↔ w.hub.Finds s' ∧ s' ≠ s) ∧ Final es ∧
      ∀ s' ∈ known, heardAt s'.line es = if s' = s then [warning, .hangUp]
        else if w.hub.directory.ofUser s'.id = some s' then [.frame (.userDisconnected s.id)]
        else [] := by
  obtain ⟨es₀, es', rfl, _, w₀, hsend, hgo⟩ := does_bind h
  obtain ⟨-, -, rfl⟩ := does_emit hsend
  have hhub : w₀.hub = w.hub := ((s.silent_send _).ends hsend.ends).1
  have hw₀ := hw.silent (s.silent_send _) hsend
  have hw' := hw₀.disconnect hgo
  have hcoherent := hw₀.kept.sessions.orderly.coherent
  rw [← hhub] at hnone hs ⊢
  obtain ⟨hremoved, hnone', hheard⟩ := disconnect_deserted hcoherent hnone hs hgo
  have hfinds : ∀ s', w'.hub.Finds s' ↔ w₀.hub.Finds s' ∧ s' ≠ s := fun s' =>
    Hub.finds_removed hremoved
  refine ⟨hw', hnone', hfinds, fun n hmem => ?_, fun s' hs' => ?_⟩
  · rw [heardAt_append, List.mem_append, heardAt_singleton] at hmem
    have hline : s.line = n := by
      refine hmem.elim (fun hmem => (LineEvent.mem_at.mp hmem).1) fun hmem => ?_
      exact absurd hmem (unwarned_disconnect hcoherent hgo n)
    rw [heardAt_append, hheard]
    exact List.mem_append_right _ (List.mem_append_right _ (LineEvent.mem_at.mpr ⟨hline, rfl⟩))
  have hcoherent' := hw'.kept.sessions.orderly.coherent
  have hall : heardAt s'.line [.fanOut (.userDisconnected s.id) w'.hub.directory.all] =
      if s' ∈ w'.hub.directory.all then [.frame (.userDisconnected s.id)] else [] :=
    heardAt_fanOut hcoherent'.nodup_all (fun s'' hs'' hline =>
      hw'.lined.apart (hw'.lined.found (hcoherent'.mem_all_iff.mp hs'')) hs' hline) _
  have hmem : s' ∈ w'.hub.directory.all ↔ w₀.hub.Finds s' ∧ s' ≠ s :=
    hcoherent'.mem_all_iff.trans (hfinds s')
  have hlines := LineEvent.at_line (hw₀.lined.apart (hw₀.lined.found hs) hs')
  rw [heardAt_append, hheard, hall, heardAt_singleton, Effect.at, hlines, hlines]
  by_cases heq : s' = s
  · rw [if_pos heq, if_pos heq, if_pos heq, if_neg fun hm => (hmem.mp hm).2 heq]
    rfl
  · rw [if_neg heq, if_neg heq, if_neg heq, List.nil_append, List.append_nil]
    exact if_congr (hmem.trans (and_iff_left heq)) rfl rfl

/-! ## Everybody -/

/-- some sessions being dismissed one after another, as one of those that are online hears it -/
def dismissals (s : Session) : List Session → List LineEvent
  | [] => []
  | s' :: rest =>
    if s = s' then [warning, .hangUp] else .frame (.userDisconnected s'.id) :: dismissals s rest

theorem dismiss_each (sessions : List Session) (hw : w.InOrder known n astray)
    (hnone : ∀ id, w.hub.openRooms.get? id = none) (hfound : ∀ s ∈ sessions, w.hub.Finds s)
    (hnodup : sessions.Nodup) (h : (each dismiss sessions).Does w x w' es) :
    w'.InOrder known n astray ∧ (∀ id, w'.hub.openRooms.get? id = none) ∧
      (∀ s, w'.hub.Finds s ↔ w.hub.Finds s ∧ s ∉ sessions) ∧ Final es ∧
      ∀ s ∈ known, heardAt s.line es =
        if w.hub.directory.ofUser s.id = some s then dismissals s sessions else [] := by
  induction sessions generalizing w es with
  | nil =>
    obtain ⟨-, rfl, rfl⟩ := does_done h
    exact ⟨hw, hnone, by simp, final_nil, fun s _ => by simp [dismissals]⟩
  | cons s₀ rest ih =>
    obtain ⟨es₁, es₂, rfl, _, w₁, h₁, h₂⟩ := does_bind h
    obtain ⟨hout, hnodup⟩ := List.nodup_cons.mp hnodup
    have hs₀ := hfound s₀ (List.mem_cons_self ..)
    obtain ⟨hw₁, hnone₁, hfinds₁, hfinal₁, hheard₁⟩ := dismiss_does hw hnone hs₀ h₁
    have hfound₁ : ∀ s ∈ rest, w₁.hub.Finds s := fun s hs =>
      (hfinds₁ s).mpr ⟨hfound s (List.mem_cons_of_mem _ hs), fun heq => hout (heq ▸ hs)⟩
    obtain ⟨hw', hnone', hfinds', hfinal', hheard'⟩ := ih hw₁ hnone₁ hfound₁ hnodup h₂
    refine ⟨hw', hnone', fun s => ?_, hfinal₁.append hfinal', fun s hs => ?_⟩
    · rw [hfinds', hfinds₁, List.mem_cons, not_or, and_assoc]
    · rw [heardAt_append, hheard₁ s hs, hheard' s hs, dismissals]
      have hrest : w₁.hub.directory.ofUser s.id = some s ↔
          w.hub.directory.ofUser s.id = some s ∧ s ≠ s₀ := hfinds₁ s
      by_cases heq : s = s₀
      · subst heq
        rw [if_pos rfl, if_pos rfl, if_neg fun hc => (hrest.mp hc).2 rfl]
        rw [show w.hub.directory.ofUser s.id = some s from hs₀, if_pos rfl]
        exact List.append_nil _
      · rw [if_neg heq, if_neg heq]
        by_cases hf : w.hub.directory.ofUser s.id = some s
        · rw [if_pos hf, if_pos hf, if_pos (hrest.mpr ⟨hf, heq⟩)]
          rfl
        · rw [if_neg hf, if_neg hf, if_neg fun hc => hf (hrest.mp hc).1]
          rfl

/-- everybody who is dismissed hears of it, and before that only of users who have gone -/
theorem dismissals_of_mem {s : Session} {sessions : List Session} (hs : s ∈ sessions) :
    ∃ gone, dismissals s sessions = gone ++ [warning, .hangUp] ∧
      ∀ event ∈ gone, ∃ user, event = .frame (.userDisconnected user) := by
  induction sessions with
  | nil => cases hs
  | cons s' rest ih =>
    rw [dismissals]
    by_cases heq : s = s'
    · refine ⟨[], ?_, fun _ hevent => absurd hevent List.not_mem_nil⟩
      rw [if_pos heq, List.nil_append]
    · obtain ⟨gone, hgone, honly⟩ := ih ((List.mem_cons.mp hs).resolve_left heq)
      refine ⟨.frame (.userDisconnected s'.id) :: gone, ?_, fun event hevent => ?_⟩
      · rw [if_neg heq, hgone, List.cons_append]
      · rcases List.mem_cons.mp hevent with rfl | hevent
        · exact ⟨s'.id, rfl⟩
        · exact honly event hevent

/-! ## Rooms first -/

/-- What a session hears of a shutdown: of its room that it has closed, then of users that have
gone, and at last the warning and the hang-up. -/
def Hub.Dismissal (h : Hub) (s : Session) (events : List LineEvent) : Prop :=
  ∃ closed gone, events = closed ++ gone ++ [warning, .hangUp] ∧
    (∀ event ∈ closed, ∃ id, event = .frame (.roomClosed id)) ∧
    (∀ event ∈ gone, ∃ user, event = .frame (.userDisconnected user)) ∧
    ∀ id ref, h.openRooms.get? id = some ref → s.id ∈ (h.room ref).ids →
      .frame (.roomClosed id) ∈ closed

theorem Hub.Dismissal.warned {h : Hub} {s : Session} {events : List LineEvent}
    (hd : h.Dismissal s events) : ∃ news, events = news ++ [warning] ++ [.hangUp] ∧
      warning ∉ news ∧ .hangUp ∉ news := by
  obtain ⟨closed, gone, rfl, hclosed, hgone, -⟩ := hd
  have hnews : ∀ event ∈ closed ++ gone, ∃ p, event = .frame p ∧ .frame p ≠ warning := by
    intro event hevent
    rcases List.mem_append.mp hevent with hevent | hevent
    · obtain ⟨id, rfl⟩ := hclosed event hevent
      exact ⟨_, rfl, nofun⟩
    · obtain ⟨user, rfl⟩ := hgone event hevent
      exact ⟨_, rfl, nofun⟩
  refine ⟨closed ++ gone, by simp, fun hmem => ?_, fun hmem => ?_⟩
  · obtain ⟨p, heq, hne⟩ := hnews _ hmem
    exact hne heq.symm
  · obtain ⟨p, heq, -⟩ := hnews _ hmem
    cases heq

/-- a healthy line records it all, with the only warning that it has ever heard -/
theorem Hub.Dismissal.recorded {h : Hub} {s : Session} {events : List LineEvent} {l : Line}
    (hd : h.Dismissal s events) (hstate : l.state = .healthy) (hopen : l.closed = false)
    (hunwarned : warning ∉ l.events) :
    (events.foldl Line.take l).events = l.events ++ events ∧
      (events.foldl Line.take l).events.count warning = 1 := by
  obtain ⟨news, rfl, hnot, hstill⟩ := hd.warned
  have hframes : LineEvent.hangUp ∉ news ++ [warning] := by
    rw [List.mem_append, List.mem_singleton, not_or]
    exact ⟨hstill, nofun⟩
  have hother : ¬ (LineEvent.hangUp == warning) = true := mt beq_iff_eq.mp nofun
  rw [Line.events_foldl_take_hangUp hstate hopen hframes]
  refine ⟨List.append_assoc _ _ _, ?_⟩
  simp only [List.count_append, List.count_eq_zero_of_not_mem hunwarned,
    List.count_eq_zero_of_not_mem hnot, List.count_singleton_self, List.count_singleton,
    if_neg hother]

theorem RoomNews.discreet_closeAll : closeAll.Discreet :=
  (discreet_read _).bind fun _ => within_each fun ref _ => discreet_closeRoom ref

theorem shutdown_does (hw : w.InOrder known n astray) (h : shutdown.Does w x w' es) :
    w'.InOrder known n astray ∧ (∀ id, w'.hub.openRooms.get? id = none) ∧
      (∀ s, ¬ w'.hub.Finds s) ∧ Final es ∧
      ∀ s, w.hub.Finds s → w.hub.Dismissal s (heardAt s.line es) := by
  obtain ⟨es₁, es₂, rfl, _, w₁, h₁, h₂⟩ := does_bind h
  obtain ⟨hw₁, hcloses, hnone₁⟩ := RoomNews.closes_closeAll hw h₁
  have hcoherent := hw₁.kept.sessions.orderly.coherent
  obtain ⟨hw', hnone', hfinds, hfinal, hheard⟩ := dismiss_each _ hw₁ hnone₁
    (fun s hs => hcoherent.mem_all_iff.mp hs) hcoherent.nodup_all (does_read_bind h₂)
  refine ⟨hw', hnone', fun s hs => ?_,
    (final_of_unwarned (RoomNews.discreet_closeAll.unwarned h₁)).append hfinal, fun s hs => ?_⟩
  · obtain ⟨hs₁, hout⟩ := (hfinds s).mp hs
    exact hout (hcoherent.mem_all_iff.mpr hs₁)
  · have hs₁ : w₁.hub.Finds s := (Hub.finds_congr hcloses.directory).mpr hs
    obtain ⟨gone, hgone, honly⟩ := dismissals_of_mem (hcoherent.mem_all_iff.mpr hs₁)
    refine ⟨heardAt s.line es₁, gone, ?_, hcloses.only hs, honly, fun id ref hr hmem =>
      hcloses.told hs hr hmem (hnone₁ id)⟩
    rw [heardAt_append, hheard s (hw.lined.found hs),
      show w₁.hub.directory.ofUser s.id = some s from hs₁, if_pos rfl, hgone, List.append_assoc]

/-! ## The end -/

/-- while no room is open, a user can leave without settling anything -/
theorem RoomNews.halts_leaveCurrent_of_none (user : Int32) :
    (leaveCurrent user).Halts fun h => ∀ id, h.openRooms.get? id = none := by
  intro w hnone
  let v : World := { w with hub := (Rooms.vacate user w.hub).2 }
  have hleave : (Rooms.leave user).Ends w none v := by
    refine ends_bind.mpr ⟨_, v, ends_transact.mpr ⟨rfl, rfl⟩, ?_⟩
    cases (Rooms.vacate user w.hub).1 with
    | none => exact ends_done.mpr ⟨rfl, rfl⟩
    | some room =>
      exact ends_bind.mpr ⟨none, v, ends_read.mpr ⟨(hnone room).symm, rfl⟩,
        ends_done.mpr ⟨rfl, rfl⟩⟩
  exact ⟨false, v, ends_bind.mpr ⟨none, v, hleave, ends_done.mpr ⟨rfl, rfl⟩⟩, hnone⟩

theorem halts_dismiss (s : Session) :
    (dismiss s).Halts fun h => ∀ id, h.openRooms.get? id = none :=
  halts_bind (s.halts_send _) fun _ => halts_disconnect_of (fun hopen _ hnone => hopen ▸ hnone)
    RoomNews.halts_leaveCurrent_of_none s.token

/-- Unlike packets, a shutdown comes to an end whatever the difficulties of maps are. -/
theorem shutdown_ends (hw : w.InOrder known n astray) : ∃ w', shutdown.Ends w () w' := by
  have hany : Hub.KeptByClosing fun _ => True := ⟨fun _ _ => trivial, fun _ _ => trivial⟩
  obtain ⟨_, w₁, h₁, -⟩ := RoomNews.halts_closeAll hany w trivial
  obtain ⟨es, hdoes⟩ := h₁.does
  obtain ⟨-, -, hnone⟩ := RoomNews.closes_closeAll hw hdoes
  obtain ⟨_, w', h₂, -⟩ := halts_each halts_dismiss w₁.hub.directory.all w₁ hnone
  exact ⟨w', ends_bind.mpr ⟨_, w₁, h₁, ends_bind.mpr ⟨_, w₁, ends_read.mpr ⟨rfl, rfl⟩, h₂⟩⟩⟩

end Dismiss

/-! ## All acts -/

section Acts

variable {known : List Session} {n : Nat} {astray : Int32 → Prop} {w w' : World} {es : List Effect}

/-- only a shutdown warns anybody, and it hangs up on everybody whom it warns -/
theorem Act.final {act : Act} {o : Outcome} (hw : w.InOrder known n astray)
    (h : act.task.Does w o w' es) : Final es := by
  have hh := hw.kept.sessions.orderly
  have hdoes := act.does h
  cases act with
  | login profile token line =>
    obtain ⟨x, -, hlogin⟩ := hdoes
    exact final_of_unwarned (unwarned_login hh hlogin)
  | packet s p =>
    obtain ⟨x, -, hpacket⟩ := hdoes
    exact final_of_unwarned ((s.discreet_dispatch p).unwarned hpacket)
  | disconnect token => exact final_of_unwarned (unwarned_disconnect hh.coherent hdoes.2)
  | shutdown =>
    obtain ⟨-, -, -, hfinal, -⟩ := shutdown_does hw hdoes.2
    exact hfinal
  | elapse clock database =>
    obtain ⟨-, -, rfl⟩ := hdoes
    exact final_nil

end Acts

section Course

variable {database : Database} {timeouts : Timeouts} {flood : FloodLimits} {clock : Int64}
  {steady : Nat → Prop} {start w : World} {past : List Act} {outcomes : List Outcome}

theorem Course.inOrder
    (h : Course Act.OfKnown .none (.start (.start database timeouts flood clock)) past outcomes w)
    (hl : w.hub.Lined (known outcomes)) : w.InOrder (known outcomes) (idsGiven past outcomes)
      (Strayed .none (.start (.start database timeouts flood clock)) past outcomes w) :=
  ⟨h.kept, hl, h.placed rfl⟩

theorem Course.unwarned (h : Course Act.Proper (.sparing steady) start past outcomes w)
    (hstart : start.hub = .start database timeouts flood clock)
    (hfresh : ∀ n l, steady n → start.lines[n]? = some l → l = .opened .healthy) {n : Nat}
    {l : Line} (hn : steady n) (hl : w.lines[n]? = some l) (hopen : l.closed = false) :
    warning ∉ l.events := by
  induction h using Course.induction generalizing l with
  | nil =>
    cases hfresh n l hn hl
    exact List.not_mem_nil
  | @snoc past outcomes w w' act o es hpast hmay hgo ih =>
    obtain ⟨v, hv, -, halone⟩ := hpast.ofKnown.afresh hstart
    obtain ⟨v', hdoes, hv'⟩ := act.oblivious_task.does hgo hv
    have hfinal := Act.final (halone.inOrder (hv ▸ (hpast.linesMatch hstart).lined)) hdoes
    rw [hgo.spared_line hn] at hl
    obtain ⟨l₀, hl₀, rfl⟩ := Option.map_eq_some_iff.mp hl
    have hstill := mt (Line.closed_foldl_take l₀ (heardAt n es)).mpr (by simp [hopen])
    rw [not_or] at hstill
    have hhealthy := hpast.healthy (fun n l hn hl => by rw [hfresh n l hn hl]; rfl) hn hl₀
    rw [Line.events_foldl_take hhealthy hopen, List.mem_append, not_or]
    exact ⟨ih hl₀ (Bool.eq_false_iff.mpr hstill.1), fun hmem => hstill.2 (hfinal n hmem)⟩

theorem Act.shutdown_amid {out : Outside} {n : Nat} {astray : Int32 → Prop} {known : List Session}
    {v : World} (hv : v.InOrder known n astray) :
    ∃ o v' es, Act.shutdown.task.DoesAmid out v o v' es := by
  obtain ⟨v', hends⟩ := shutdown_ends hv
  have htask : Act.shutdown.task.Ends v .nothing v' :=
    ends_bind.mpr ⟨(), v', hends, ends_done.mpr ⟨rfl, rfl⟩⟩
  obtain ⟨es, hgo⟩ := htask.amid
  exact ⟨.nothing, v', es, hgo⟩

/-- what a session hears of its dismissal has come through on its line, if that is steady -/
theorem Course.dismissal_recorded {o : Outcome} {w' : World} {es : List Effect}
    (h : Course Act.Proper (.sparing steady) start past outcomes w)
    (hstart : start.hub = .start database timeouts flood clock)
    (hfresh : ∀ n l, steady n → start.lines[n]? = some l → l = .opened .healthy)
    (hgo : Act.shutdown.task.DoesAmid (.sparing steady) w o w' es) {s : Session}
    (hs : w.hub.directory.ofUser s.id = some s) (hline : steady s.line)
    (hdismissal : w.hub.Dismissal s (heardAt s.line es)) :
    ∃ l l' events, w.lines[s.line]? = some l ∧ w'.lines[s.line]? = some l' ∧
      l'.events = l.events ++ events ∧ w.hub.Dismissal s events ∧ l'.events.count warning = 1 := by
  have hlinesMatch := h.linesMatch hstart
  obtain ⟨l, hl, hclosed⟩ := hlinesMatch.lines s (hlinesMatch.lined.found hs)
  have hopen : l.closed = false := Bool.eq_false_iff.mpr fun hc => hclosed.mp hc hs
  have hhealthy := h.healthy (fun n l hn hl => by rw [hfresh n l hn hl]; rfl) hline hl
  have hunwarned := h.unwarned hstart hfresh hline hl hopen
  obtain ⟨hevents, honce⟩ := hdismissal.recorded hhealthy hopen hunwarned
  have htaken := hgo.spared_line hline
  rw [hl, Option.map_some] at htaken
  exact ⟨l, _, heardAt s.line es, hl, htaken, hevents, hdismissal, honce⟩

/-- nothing is called for when nobody is found and no room is open -/
theorem Hub.not_callsFor {h : Hub} (htoken : ∀ token, h.directory.ofToken token = none)
    (hnone : ∀ id, h.openRooms.get? id = none) {k : Key} {r : Record} : ¬ h.CallsFor k r := by
  intro hcalls
  cases hcalls with
  | session hs =>
    rw [htoken] at hs
    cases hs
  | status hs =>
    rw [htoken] at hs
    cases hs
  | room hr =>
    rw [hnone] at hr
    cases hr
  | player hr _ =>
    rw [hnone] at hr
    cases hr

/-- Whatever has been done with a server that has just started, with a store that takes every call,
a shutdown comes to an end and leaves nothing behind.  Nobody is found any more, no room is open,
and all sessions that have been online are retired and hung up on.  As long as at most `2 ^ 32` ids
of rooms have been given away, nobody is noted to be in a room and the store is empty.  Beyond that,
only records of players may be left in the store.

On a line that is steady, a session that was found has heard of its room that it has closed, then of
users that have gone, and at last the warning, which it had not heard before, and the hang-up. -/
theorem shutdown_leaves_nothing
    (h : Course Act.Proper ((Outside.sparing steady).both .keepingStore) start past outcomes w)
    (hstart : start.hub = .start database timeouts flood clock) (hcache : start.cache = .empty)
    (hfresh : ∀ n l, steady n → start.lines[n]? = some l → l = .opened .healthy) :
    (∃ o w' es,
      Act.shutdown.task.DoesAmid ((Outside.sparing steady).both .keepingStore) w o w' es) ∧
    ∀ o w' es,
      Act.shutdown.task.DoesAmid ((Outside.sparing steady).both .keepingStore) w o w' es →
      (∀ token, w'.hub.directory.ofToken token = none) ∧
      (∀ user, w'.hub.directory.ofUser user = none) ∧
      (∀ id, w'.hub.openRooms.get? id = none) ∧
      (idsGiven past outcomes ≤ UInt32.size → ∀ user, w'.hub.memberships.get? user = none) ∧
      (∀ s ∈ known outcomes, (w'.hub.stateOf s).retired = true ∧
        ∃ l, w'.lines[s.line]? = some l ∧ l.closed = true) ∧
      (∀ key r, w'.record key = some r →
        UInt32.size < idsGiven past outcomes ∧ ∃ room user, key = (Key.player room user).text) ∧
      ∀ s, w.hub.directory.ofUser s.id = some s → steady s.line →
        ∃ l l' events, w.lines[s.line]? = some l ∧ w'.lines[s.line]? = some l' ∧
          l'.events = l.events ++ events ∧ w.hub.Dismissal s events ∧
          l'.events.count warning = 1 := by
  have hstore : ((Outside.sparing steady).both .keepingStore).KeepsStore :=
    fun _ _ hchange => hchange.2.2
  have hsparing : Course Act.Proper (.sparing steady) start past outcomes w :=
    h.widen fun _ _ => And.left
  have hlinesMatch := hsparing.linesMatch hstart
  obtain ⟨u, hu, hucache, halone⟩ := h.ofKnown.afresh hstart
  have hw : w.InOrder (known outcomes) (idsGiven past outcomes) _ :=
    (halone.inOrder (hu ▸ hlinesMatch.lined)).congr hu.symm (hucache hstore hcache).symm
  refine ⟨Act.shutdown_amid hw, fun o w' es hgo => ?_⟩
  obtain ⟨v, hdoes, hv⟩ := Act.shutdown.oblivious_task.does hgo (rfl : w.hub = w.hub)
  have hvcache : v.cache = w'.cache := by rw [hdoes.cache, hgo.cache hstore]
  obtain ⟨rfl, hshutdown⟩ := Act.does hdoes
  obtain ⟨hw', hnone, hlost, -, hheard⟩ := shutdown_does hw hshutdown
  have hh := hw'.kept.sessions.orderly
  have hmay : Act.Proper (known outcomes) w .shutdown := trivial
  have hspared : Act.shutdown.task.DoesAmid (.sparing steady) w .nothing w' es :=
    hgo.mono fun _ _ => And.left
  have hafter := (hsparing.snoc hmay hspared).linesMatch hstart
  rw [← hv]
  have htoken : ∀ token, v.hub.directory.ofToken token = none := fun token =>
    Option.eq_none_iff_forall_ne_some.mpr fun s hs => hlost s (hh.current hs)
  refine ⟨htoken, fun user => Option.eq_none_iff_forall_ne_some.mpr fun s hs =>
    hlost s (Hub.finds_of_ofUser hh.coherent hs), hnone, fun hfew user => ?_, fun s hs => ⟨?_, ?_⟩,
    fun key r hr => ?_, fun s hs hline => ?_⟩
  · have hnotesValid := notesValid_shutdown hw.kept (hu ▸ halone.notesValid hfew) hshutdown.ends
    refine Option.eq_none_iff_forall_ne_some.mpr fun id hid => ?_
    obtain ⟨ref, hr, -⟩ := hnotesValid user id hid
    rw [hnone] at hr
    cases hr
  · have hrightful := hw'.kept.sessions.rightful s hs
    exact Bool.of_not_eq_false fun hused => hlost s (hrightful.online hused)
  · have hknown : s ∈ known (outcomes ++ [.nothing]) := by
      rw [known_snoc]
      exact List.mem_append_left _ hs
    obtain ⟨l, hl, hclosed⟩ := hafter.lines s hknown
    exact ⟨l, hl, hclosed.mpr fun hs => hlost s (hv ▸ hs)⟩
  · have hrecord : v.record key = some r := by rw [World.record, hvcache]; exact hr
    apply (hw'.kept.callsFor_of_record hrecord).resolve_left
    intro hexists
    obtain ⟨k, -, hcalls⟩ := hexists
    exact Hub.not_callsFor htoken hnone hcalls
  · exact hsparing.dismissal_recorded hstart hfresh hspared hs hline (hheard s hs)

end Course

open Act in
/-- When an id comes round, a member of the older room keeps its note and its record through a
shutdown. -/
theorem shutdown_leaves_nothing_rollover :
    ∃ w w' es, Course Proper ((Outside.sparing fun _ => True).both .keepingStore) threeLines
        rollover rolledOver w ∧
      Act.shutdown.task.DoesAmid ((Outside.sparing fun _ => True).both .keepingStore) w
        .nothing w' es ∧
      w'.hub.memberships.get? host.id = some 1 ∧
      (w'.record (Key.player 1 host.id).text).isSome = true := by
  obtain ⟨w, hcourse, hw⟩ :=
    course_rollover ((Outside.sparing fun _ => True).both .keepingStore)
  have hends : Act.shutdown.task.Ends overtaken .nothing (Act.shutdown.task.after 100 overtaken) :=
    ends_after rfl
  obtain ⟨es, hgo⟩ := hends.does
  obtain ⟨w', hdoes, hw'⟩ := hw.does Act.shutdown.oblivious_task hgo
  refine ⟨w, w', es, hcourse, hdoes.amid, ?_, ?_⟩
  · rw [← hw'.memory]
    rfl
  · rw [World.record, ← hw'.store]
    decide

/-- one evening ends: the guest hears that its room has closed, and the store is empty -/
theorem shutdown_leaves_nothing_evening : ∃ o w' es,
    Act.shutdown.task.DoesAmid ((Outside.sparing fun _ => True).both .keepingStore)
      (Act.following Act.threeLines Act.evening) o w' es ∧
    (∀ user, w'.hub.directory.ofUser user = none) ∧ (∀ key, w'.record key = none) ∧
    ∃ l, w'.lines[1]? = some l ∧ .frame (.roomClosed 1) ∈ l.events ∧
      l.events.count warning = 1 := by
  have hids : idsGiven Act.evening Act.greetings = 1 := rfl
  have hcourse := (Act.course_evening ((Outside.sparing fun _ => True).both .keepingStore)).proper
  obtain ⟨⟨o, w', es, hgo⟩, hall⟩ := shutdown_leaves_nothing hcourse rfl rfl
    fun n l _ hl => Act.threeLines_opened hl
  obtain ⟨-, huser, -, -, -, hrecord, hheard⟩ := hall o w' es hgo
  obtain ⟨_, l, events, -, hl, hevents, ⟨closed, gone, rfl, -, -, htold⟩, honce⟩ :=
    hheard Act.guest rfl trivial
  refine ⟨o, w', es, hgo, huser, fun key => ?_, l, hl, ?_, honce⟩
  · refine Option.eq_none_iff_forall_ne_some.mpr fun r hr => ?_
    have hover := (hrecord key r hr).1
    rw [hids] at hover
    exact absurd hover (by decide)
  · have hclosed := htold 1 ⟨0, 1⟩ rfl (by decide)
    rw [hevents]
    exact List.mem_append_right _ (List.mem_append_left _ (List.mem_append_left _ hclosed))

end RhythmLobby
