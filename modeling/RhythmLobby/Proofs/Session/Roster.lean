import RhythmLobby.Proofs.Replica

/-!
# Clients know who is online

A client that follows who comes online and who goes has the list of those who are online.

* `Roster`                        such a list, and how it is followed;
* `keeps_disconnect`              all hear of a teardown, unless the user has a newer session;
* `Roster.shows_login`            everybody hears of a login;
* `rosters_show_who_is_online`    the roster of every session on a steady line, after any acts.
-/

namespace RhythmLobby
open Routine

/-! ## Rosters -/

/-- the users that a client takes to be online -/
abbrev Roster := Table Int32 PublicUser

namespace Roster

def ofUsers (users : List PublicUser) : Roster := Table.ofList (users.map fun u => (u.id, u))

def follow (t : Roster) : ServerPacket → Roster
  | .usersOnline users => ofUsers users
  | .userConnected user => t.insert user.id user
  | .userDisconnected userId => t.erase userId
  | _ => t

/-- the roster lists those who are online, each as its session has it -/
def Lists (t : Roster) (d : Directory) : Prop :=
  ∀ user, t.get? user = (d.ofUser user).map Session.toPublic

/-- while a session is found, its client lists those who are online -/
def replica : Replica Roster where
  blank := ∅
  follow := follow
  Shows h s t := h.Finds s → t.Lists h.directory
  absent hlost hfound := absurd hfound hlost

theorem follow_of_discreet {p : ServerPacket} (hp : (LineEvent.frame p).Discreet) (t : Roster) :
    t.follow p = t := by
  cases p with
  | userConnected user => exact hp.elim
  | userDisconnected userId => exact hp.elim
  | usersOnline users => exact hp.elim
  | _ => rfl

/-! ## The list of all users -/

/-- sessions entered one after another, each under its user -/
theorem get?_foldl_insert {sessions : List Session} (hnodup : (sessions.map Session.id).Nodup)
    (t : Roster) (user : Int32) :
    (sessions.foldl (fun t s => Table.insert t s.id s.toPublic) t).get? user =
      ((sessions.find? (·.id = user)).map Session.toPublic).or (t.get? user) := by
  induction sessions generalizing t with
  | nil => rfl
  | cons s rest ih =>
    rw [List.map_cons, List.nodup_cons] at hnodup
    rw [List.foldl_cons, ih hnodup.2, Table.get?_insert, List.find?_cons]
    by_cases hs : s.id = user
    · have hnone : rest.find? (·.id = user) = none := by
        rw [List.find?_eq_none]
        intro s' hs' hid
        exact hnodup.1 (List.mem_map.mpr ⟨s', hs', by rw [hs]; simpa using hid⟩)
      simp [hs, hnone]
    · simp [hs]

end Roster

namespace Directory

variable {d : Directory}

theorem Coherent.find?_all (hd : d.Coherent) (user : Int32) :
    d.all.find? (·.id = user) = d.ofUser user := by
  cases hu : d.ofUser user with
  | none =>
    rw [List.find?_eq_none]
    intro s hs hid
    have hfound := hd.mem_all_iff.mp hs
    rw [show s.id = user by simpa using hid, hu] at hfound
    cases hfound
  | some s =>
    have hid := hd.user hu
    have hs : s ∈ d.all := hd.mem_all_iff.mpr (by rw [hid]; exact hu)
    have hsome : (d.all.find? (·.id = user)).isSome := by
      rw [List.find?_isSome]
      exact ⟨s, hs, decide_eq_true hid⟩
    obtain ⟨s', hs'⟩ := Option.isSome_iff_exists.mp hsome
    have hfound := hd.mem_all_iff.mp (List.mem_of_find?_eq_some hs')
    have hid' : s'.id = user := of_decide_eq_true (List.find?_some hs' :)
    rw [hid', hu] at hfound
    rw [hs', hfound]

theorem Coherent.lists_all (hd : d.Coherent) :
    (Roster.ofUsers (d.all.map Session.toPublic)).Lists d := by
  intro user
  have hentries := Roster.get?_foldl_insert hd.nodup_ids ∅ user
  rw [hd.find?_all, Table.get?_empty, Option.or_none] at hentries
  rw [← hentries, Roster.ofUsers, Table.ofList, List.map_map, List.foldl_map]
  rfl

end Directory

/-! ## Acts -/

namespace Roster

variable {α : Type} {known : List Session} {n : Nat} {w w' : World} {es : List Effect}

/-- what is said about other things leaves every roster as it is -/
theorem after_of_discreet {events : List LineEvent} (h : ∀ event ∈ events, event.Discreet)
    (t : Roster) : replica.after t events = t :=
  replica.after_eq_self t fun _ hp => follow_of_discreet (h _ hp)

theorem keeps_of_directory {h h' : Hub} (hd : h'.directory = h.directory) (s : Session) :
    replica.Keeps s h [] h' := by
  intro t ht hfound
  show t.Lists h'.directory
  rw [hd]
  exact ht ((Hub.finds_congr hd).mp hfound)

theorem keeps_of_discreet {r : Routine α} {x : α} (hr : r.Discreet) (h : r.Does w x w' es)
    (s : Session) : replica.Keeps s w.hub es w'.hub := by
  obtain ⟨hdirectory, hheard⟩ := hr.does h
  intro t ht
  rw [after_of_discreet (hheard s.line)]
  exact keeps_of_directory hdirectory s t ht

/-- Of a teardown everybody hears that the user has gone, unless it has a newer session: then nobody
hears anything of it. -/
theorem keeps_disconnect {token : String} {x : Unit} (hd : w.hub.directory.Coherent)
    (ha : w.hub.directory.Apart) (h : (disconnect token).Does w x w' es) (s : Session) :
    replica.Keeps s w.hub es w'.hub := by
  rcases disconnect_does hd h with
    ⟨-, rfl, rfl⟩ | ⟨s₀, d, y, w₁, es₁, es₂, -, hr, hleave, hhub, rfl, hes⟩
  · exact replica.keeps_nothing s _
  obtain ⟨hdirectory, hdiscreet⟩ := (RoomNews.discreet_leaveCurrent s₀.id).does hleave
  have hgone : w'.hub.directory = d := by
    rw [hhub, hdirectory]
    rfl
  rw [← hgone] at hr
  intro t ht hfound
  have hlists : t.Lists w.hub.directory := ht ((Hub.finds_removed hr).mp hfound).1
  show Lists _ w'.hub.directory
  rw [heardAt_append, Replica.after_append, after_of_discreet (hdiscreet s.line), hes,
    Replica.after_append, Replica.after_hangUp]
  by_cases hnone : w'.hub.directory.ofUser s₀.id = none
  · rw [if_pos hnone, (hd.removed hr).heard_all (ha.removed hr) hfound, Replica.after_frame]
    intro user
    show (t.erase s₀.id).get? user = _
    rw [Table.get?_erase, hlists user]
    by_cases huser : s₀.id = user
    · subst huser
      rw [if_pos rfl, hnone]
      rfl
    · rw [if_neg huser, hr.ofUser, if_neg fun hc => huser hc.1]
  · rw [if_neg hnone, Replica.after_nil]
    intro user
    rw [hlists user, hr.ofUser, if_neg]
    intro hboth
    obtain ⟨rfl, hs₀⟩ := hboth
    rw [hr.ofUser, if_pos ⟨rfl, hs₀⟩] at hnone
    exact hnone rfl

/-- until the new session is greeted, nobody hears who is online -/
theorem quiet_before_greet {profile : Profile} {token : String} {line : Nat}
    {s : Session} (hh : w.hub.Orderly) (h : (login profile token line).Does w (.ok s) w' es) :
    ∃ w₁ es₁ es₂, s.greet.Does w₁ (.ok s) w' es₂ ∧ es = es₁ ++ es₂ ∧
      ∀ n p, .frame p ∈ heardAt n es₁ → (LineEvent.frame p).Discreet := by
  rcases login_does hh.coherent h with
    ⟨hx, -⟩ | ⟨s', d, w₁, es₁, es₂, hs, hx, hd, hgreet, rfl, hold⟩
  · cases hx
  cases hx
  refine ⟨w₁, es₁, es₂, hgreet, rfl, fun n p hp => ?_⟩
  cases ho : w.hub.directory.ofUser s.id with
  | none =>
    rw [ho] at hold
    rw [hold.2] at hp
    cases hp
  | some old =>
    rw [ho] at hold
    obtain ⟨w₀, es₀, hhub, -, hpresent, hdisconnect, rfl⟩ := hold
    have hdirectory : w₀.hub.directory = d := by
      rw [hhub]
      rfl
    rw [heardAt_cons, List.mem_append] at hp
    rcases hp with hp | hp
    · cases (LineEvent.mem_at.mp hp).2
      exact (by decide : "logged in from another location" ≠ "server is shutting down")
    rcases disconnect_does (hdirectory ▸ hh.coherent.entered hd) hdisconnect with
      ⟨-, -, rfl⟩ | ⟨s₀, d', y, w₂, es₃, es₄, htoken, hr, hleave, hhub₂, rfl, hes⟩
    · cases hp
    -- the old session is torn down while the directory already finds the new one for its user
    have hgone := hr.present
    rw [hdirectory, htoken, hpresent] at hgone
    cases hgone
    have hid : old.id = s.id := hh.coherent.user ho
    obtain ⟨hdirectory₂, hdiscreet⟩ := (RoomNews.discreet_leaveCurrent old.id).does hleave
    have hnewer : w₁.hub.directory.ofUser old.id ≠ none := by
      have hfound : d.ofUser s.id = some s := (hd.ofUser s.id).trans (if_pos rfl)
      rw [hhub₂, hdirectory₂]
      show d'.ofUser old.id ≠ none
      rw [hr.ofUser, hdirectory, hid, hfound, if_neg]
      · exact Option.some_ne_none s
      · intro hboth
        obtain ⟨-, heq⟩ := hboth
        cases heq
        exact hh.coherent.ofToken_ne hd.fresh ho rfl
    rw [heardAt_append, hes, if_neg hnewer, List.nil_append, List.mem_append] at hp
    rcases hp with hp | hp
    · exact hdiscreet n _ hp
    · cases (LineEvent.mem_at.mp hp).2

/-- Of a login everybody hears, the new session included, and an old session of its user never seems
to have gone. -/
theorem shows_login {profile : Profile} {token : String} {line : Nat} {s : Session}
    (hh : w.hub.Orderly) (hw : w.Reliable) (hl : w.hub.Lined known)
    (hfree : ∀ s' ∈ known, s'.line ≠ line)
    (h : (login profile token line).Does w (.ok s) w' es) :
    (∀ s' ∈ known, replica.Keeps s' w.hub es w'.hub) ∧
      ∀ t, replica.Shows w'.hub s (replica.after t (heardAt s.line es)) := by
  have hline := login_line hh.coherent h
  obtain ⟨s', hx, -, -, hadmitted, -⟩ := (login_admitted hw hh h.ends).resolve_left fun hc => by
    cases hc.1
  cases hx
  obtain ⟨w₁, es₁, es₂, hgreet, rfl, hdiscreet⟩ := quiet_before_greet hh h
  have hquiet : ∀ n t, replica.after t (heardAt n es₁) = t := fun n t =>
    replica.after_eq_self t fun p hp => follow_of_discreet (hdiscreet n p hp)
  obtain ⟨-, hmemory, hgreeted⟩ := Session.greet_does hgreet
  have hcoherent := (hh.admitted hadmitted).coherent
  have happart : w'.hub.directory.Apart :=
    (hl.joined hadmitted (hline ▸ hfree)).directory_apart hcoherent
  rw [← hmemory] at hgreeted
  refine ⟨fun s' hs' t ht hfound => ?_, fun t hfound => ?_⟩
  · have hother : s.line ≠ s'.line := fun heq => hfree s' hs' (heq.symm.trans hline)
    have hne : s' ≠ s := fun heq => hother (heq ▸ rfl)
    obtain ⟨hbefore, hid⟩ := (hadmitted.finds.mp hfound).resolve_left hne
    have hlists : t.Lists w.hub.directory := ht hbefore
    rw [heardAt_append, Replica.after_append, hquiet, hgreeted,
      hcoherent.heard_others happart hfound, if_neg hne, LineEvent.at, if_neg hother,
      LineEvent.at, if_neg hother]
    intro user
    show (t.insert s.id s.toPublic).get? user = _
    rw [Table.get?_insert, hadmitted.ofUser, hlists user]
    split
    · rfl
    · rfl
  · rw [heardAt_append, Replica.after_append, hquiet, hgreeted,
      hcoherent.heard_others happart hfound, if_pos rfl, LineEvent.at, if_pos rfl,
      LineEvent.at, if_pos rfl]
    exact hcoherent.lists_all

theorem nobody_goes_at_login {profile : Profile} {token : String} {line : Nat}
    {x : Except RegistryError Session} (hh : w.hub.Orderly)
    (h : (login profile token line).Does w x w' es) (n : Nat) (user : Int32) :
    .frame (.userDisconnected user) ∉ heardAt n es := by
  intro hmem
  rcases login_does hh.coherent h with ⟨-, rfl, -⟩ | ⟨s, _, _, _, _, -, rfl, -⟩
  · cases hmem
  obtain ⟨w₁, es₁, es₂, hgreet, rfl, hdiscreet⟩ := quiet_before_greet hh h
  rw [heardAt_append, (Session.greet_does hgreet).2.2 n] at hmem
  simp only [List.mem_append, LineEvent.mem_at, heardAt_singleton, Effect.at, List.mem_flatMap]
    at hmem
  rcases hmem with hmem | ⟨-, hmem⟩ | ⟨-, hmem⟩ | ⟨-, -, -, hmem⟩
  · exact hdiscreet n _ hmem
  · cases hmem
  · cases hmem
  · cases hmem

theorem rule_keeps : Act.Rule known n (fun _ => True)
    fun h es h' => ∀ s, replica.Keeps s h es h' where
  chained := replica.chained_keeps
  aside hr h := keeps_of_discreet hr.discreet h
  warned h s s' t ht := by
    rwa [replica.after_eq_self t fun p hp => ?_]
    rw [heardAt_singleton] at hp
    cases (LineEvent.mem_at.mp hp).2
    exact fun _ => rfl
  close _ _ _ h := ⟨trivial, keeps_of_discreet (RoomNews.discreet_closeRoom _) h⟩
  disconnect hk hl _ h :=
    have hd := hk.sessions.orderly.coherent
    ⟨trivial, keeps_disconnect hd (hl.directory_apart hd) h⟩

/-- every act keeps the rosters of all sessions right, and brings a new session a roster -/
theorem shows_act {act : Act} {o : Outcome} {v : World} (hmay : act.Proper known w)
    (hk : v.Kept (· ∈ known) n) (hl : v.hub.Lined known) (h : act.task.Does v o w' es) :
    (∀ s ∈ known, replica.Keeps s v.hub es w'.hub) ∧
      ∀ s t, o.session? = some s →
        replica.Shows w'.hub s (replica.after t (heardAt s.line es)) := by
  have hh := hk.sessions.orderly
  cases ho : o.session? with
  | some s =>
    obtain ⟨profile, token, line, rfl, hlogin⟩ := Act.brings h ho
    obtain ⟨hkeeps, hnew⟩ := shows_login hh hk.sessions.reliable hl hmay.1 hlogin
    refine ⟨hkeeps, fun s' t hs' => ?_⟩
    cases hs'
    exact hnew t
  | none =>
    refine ⟨fun s _ => rule_keeps.tells hk hl trivial h ho (fun s' p x _ hpacket => ?_) s,
      fun s t hs => ?_⟩
    · exact keeps_of_discreet (s'.discreet_dispatch p) hpacket
    · cases hs

end Roster

/-! ## All acts -/

section Course

variable {database : Database} {timeouts : Timeouts} {flood : FloodLimits} {clock : Int64}
  {steady : Nat → Prop} {start w : World} {past : List Act} {outcomes : List Outcome}

/-- After any acts amid failures of the store and of lines: on a line that never failed, the roster
that the frames so far give lists those who are online, each as its session has it, as long as the
line's own session is found.  Nobody hears of a login that anybody has gone, though
it may displace an older session.  Once a session is found no more, its token leads to nothing, and
nobody hears anything when it is torn down again. -/
theorem rosters_show_who_is_online (h : Course Act.Proper (.sparing steady) start past outcomes w)
    (hstart : start.hub = .start database timeouts flood clock)
    (hsteady : ∀ n l, steady n → start.lines[n]? = some l → l.state = .healthy) :
    (∀ s, w.hub.directory.ofUser s.id = some s → steady s.line →
      ∃ l, w.lines[s.line]? = some l ∧ ∀ user, (l.frames.foldl Roster.follow ∅).get? user =
        (w.hub.directory.ofUser user).map Session.toPublic) ∧
    (∀ profile token line o w' es,
      (Act.login profile token line).task.DoesAmid (.sparing steady) w o w' es →
        ∀ n user, .frame (.userDisconnected user) ∉ heardAt n es) ∧
    ∀ s ∈ known outcomes, (∀ s' ∈ known outcomes, s'.token = s.token → s' = s) →
      w.hub.directory.ofUser s.id ≠ some s → ∀ o w' es,
        (Act.disconnect s.token).task.DoesAmid (.sparing steady) w o w' es → w'.hub = w.hub ∧ es =
          [] := by
  obtain ⟨v, hv, hkept⟩ := h.ofKnown.kept_amid hstart
  have hh : v.hub.Orderly := hkept.sessions.orderly
  have hlined := (h.linesMatch hstart).lined
  refine ⟨fun s hs hline => ?_, fun profile token line o w' es hlogin => ?_,
    fun s hs halone hlost o w' es hgo => ?_⟩
  · obtain ⟨l, hl, hshows⟩ := h.replicates Roster.replica (fun _ _ _ => id) hstart hsteady
      (fun _ hmay hv hk hl hdoes => Roster.shows_act hmay hk hl hdoes) (hlined.found hs) hline
    exact ⟨l, hl, hshows hs⟩
  · obtain ⟨v', hdoes, -⟩ := (Act.login profile token line).oblivious_task.does hlogin hv
    obtain ⟨x, -, hlogin⟩ := Act.does hdoes
    exact Roster.nobody_goes_at_login hh hlogin
  · obtain ⟨v', hdoes, hv'⟩ := (Act.disconnect s.token).oblivious_task.does hgo hv
    obtain ⟨-, hdisconnect⟩ := Act.does hdoes
    rcases disconnect_does hh.coherent hdisconnect with ⟨-, rfl, rfl⟩ |
      ⟨s', _, _, _, _, _, htoken, hr, -⟩
    · exact ⟨hv'.symm.trans hv, rfl⟩
    · have hfound : w.hub.Finds s' := hv ▸ hh.current hr.present
      cases halone s' (hlined.found hfound) htoken
      exact absurd hfound hlost

end Course

open Act in
theorem rosters_show_who_is_online_evening :
    let w := following threeLines evening
    (∀ s, w.hub.directory.ofUser s.id = some s → True →
      ∃ l, w.lines[s.line]? = some l ∧ ∀ user, (l.frames.foldl Roster.follow ∅).get? user =
        (w.hub.directory.ofUser user).map Session.toPublic) ∧
    (∀ profile token line o w' es,
      (Act.login profile token line).task.DoesAmid (.sparing fun _ => True) w o w' es →
        ∀ n user, .frame (.userDisconnected user) ∉ heardAt n es) ∧
    ∀ s ∈ known greetings, (∀ s' ∈ known greetings, s'.token = s.token → s' = s) →
      w.hub.directory.ofUser s.id ≠ some s → ∀ o w' es,
        (Act.disconnect s.token).task.DoesAmid (.sparing fun _ => True) w o w' es →
          w'.hub = w.hub ∧ es = [] :=
  rosters_show_who_is_online (course_evening (.sparing fun _ => True)).proper rfl
    fun _ _ _ => threeLines_healthy

end RhythmLobby
