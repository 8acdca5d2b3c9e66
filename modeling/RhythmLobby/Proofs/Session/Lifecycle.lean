import RhythmLobby.Proofs.Mirror
import RhythmLobby.Proofs.Session.Announcements

/-!
# The life of a session

From its login on a session is found by user and by token, is in use and has an open line, until it
is torn down, when all of this ends together.

* `Hub.Finds`               the session is found for its user;
* `Hub.Parts`               whoever is found no more has its line hung up, and nobody else has;
* `disconnect_parts`, `login_parts`   what a teardown and a login hang up;
* `Act.Rule`                what may be said of all acts that bring no new session;
* `World.LinesMatch`          open lines belong to sessions that are found;
* `sessions_live_and_die_whole`   after any acts, amid failures of the store and of lines.
-/

namespace RhythmLobby
open Routine

namespace Hub

/-- the session is found for its user -/
def Finds (h : Hub) (s : Session) : Prop := h.directory.ofUser s.id = some s

variable {h h' : Hub} {s s' : Session}

theorem finds_congr (hd : h'.directory = h.directory) : h'.Finds s ↔ h.Finds s := by
  rw [Finds, Finds, hd]

theorem finds_of_ofUser (hd : h.directory.Coherent) {u : Int32}
    (hu : h.directory.ofUser u = some s) : h.Finds s := by
  rw [Finds, hd.user hu]
  exact hu

theorem finds_removed (hr : h.directory.Removed s h'.directory) :
    h'.Finds s' ↔ h.Finds s' ∧ s' ≠ s := by
  rw [Finds, hr.ofUser]
  by_cases hs : s.id = s'.id ∧ h.directory.ofUser s'.id = some s
  · rw [if_pos hs]
    refine ⟨nofun, fun ⟨hfound, hne⟩ => absurd ?_ hne⟩
    exact (Option.some.inj (hs.2.symm.trans hfound)).symm
  · rw [if_neg hs]
    refine ⟨fun hfound => ⟨hfound, ?_⟩, fun hfound => hfound.1⟩
    intro heq
    subst heq
    exact hs ⟨rfl, hfound⟩

theorem Admitted.finds (ha : h.Admitted s h') :
    h'.Finds s' ↔ s' = s ∨ (h.Finds s' ∧ s'.id ≠ s.id) := by
  rw [Finds, ha.ofUser]
  by_cases hid : s.id = s'.id
  · rw [if_pos hid]
    refine ⟨fun heq => .inl (Option.some.inj heq).symm, ?_⟩
    rintro (rfl | ⟨-, hne⟩)
    · rfl
    · exact absurd hid.symm hne
  · rw [if_neg hid]
    refine ⟨fun hfound => .inr ⟨hfound, Ne.symm hid⟩, ?_⟩
    rintro (rfl | ⟨hfound, -⟩)
    · exact absurd rfl hid
    · exact hfound

/-- whoever is found has been online, and no two of those who have been share a line -/
structure Lined (known : List Session) (h : Hub) : Prop where
  found : ∀ {s}, h.Finds s → s ∈ known
  apart : ∀ {s s'}, s ∈ known → s' ∈ known → s.line = s'.line → s = s'

/-- Nobody comes.  Whoever is found no more has had its line hung up, and nobody else has. -/
structure Parts (known : List Session) (h : Hub) (es : List Effect) (h' : Hub) : Prop where
  fewer : ∀ {s}, h'.Finds s → h.Finds s
  hungUp : ∀ s ∈ known, .hangUp ∈ heardAt s.line es ↔ h.Finds s ∧ ¬ h'.Finds s

variable {known : List Session} {es : List Effect}

theorem Lined.directory_apart (hl : h.Lined known) (hd : h.directory.Coherent) :
    h.directory.Apart :=
  fun hu hv => hl.apart (hl.found (finds_of_ofUser hd hu)) (hl.found (finds_of_ofUser hd hv))

theorem Lined.fewer (hl : h.Lined known) (hf : ∀ {s}, h'.Finds s → h.Finds s) : h'.Lined known :=
  ⟨fun hs => hl.found (hf hs), hl.apart⟩

theorem Lined.joined (hl : h.Lined known) (ha : h.Admitted s h')
    (hfree : ∀ s' ∈ known, s'.line ≠ s.line) : h'.Lined (known ++ [s]) where
  found hs' := by
    rcases ha.finds.mp hs' with rfl | ⟨hs', -⟩
    · exact List.mem_append_right _ (List.mem_singleton_self _)
    · exact List.mem_append_left _ (hl.found hs')
  apart {s₁ s₂} hs₁ hs₂ heq := by
    rcases List.mem_append.mp hs₁ with hs₁ | hs₁ <;> rcases List.mem_append.mp hs₂ with hs₂ | hs₂
    · exact hl.apart hs₁ hs₂ heq
    · rw [List.mem_singleton.mp hs₂] at heq
      exact absurd heq (hfree s₁ hs₁)
    · rw [List.mem_singleton.mp hs₁] at heq
      exact absurd heq.symm (hfree s₂ hs₂)
    · rw [List.mem_singleton.mp hs₁, List.mem_singleton.mp hs₂]

theorem chained_parts (known : List Session) : Chained (Parts known) where
  nothing h := ⟨id, fun s _ => by simp⟩
  after h₁ h₂ := by
    refine ⟨fun hs => h₁.fewer (h₂.fewer hs), fun s hs => ?_⟩
    rw [heardAt_append, List.mem_append, h₁.hungUp s hs, h₂.hungUp s hs]
    have hfewer₁ := h₁.fewer (s := s)
    have hfewer₂ := h₂.fewer (s := s)
    grind

end Hub

/-! ## What is hung up -/

section Parts

variable {α : Type} {known : List Session} {n : Nat} {w w' : World} {es : List Effect}

theorem Routine.Discreet.parts {r : Routine α} {x : α} (hr : r.Discreet)
    (h : r.Does w x w' es) : w.hub.Parts known es w'.hub := by
  obtain ⟨hdirectory, hheard⟩ := hr.does h
  refine ⟨fun hs => (Hub.finds_congr hdirectory).mp hs, fun s _ => ?_⟩
  rw [Hub.finds_congr hdirectory]
  exact ⟨fun hmem => (hheard _ _ hmem).elim, fun hc => absurd hc.1 hc.2⟩

theorem disconnect_parts {token : String} {x : Unit} (hd : w.hub.directory.Coherent)
    (h : (disconnect token).Does w x w' es) :
    (w.hub.directory.ofToken token = none ∧ w' = w ∧ es = []) ∨
    ∃ s, s.token = token ∧ w.hub.directory.Removed s w'.hub.directory ∧
      ∀ n, .hangUp ∈ heardAt n es ↔ s.line = n := by
  rcases disconnect_does hd h with hnone | ⟨s, d, y, w₁, es₁, es₂, htoken, hr, h₁, hhub, rfl, hes⟩
  · exact .inl hnone
  obtain ⟨hdirectory, hdiscreet⟩ := (RoomNews.discreet_leaveCurrent s.id).does h₁
  refine .inr ⟨s, htoken, ?_, fun n => ?_⟩
  · rw [hhub, hdirectory]
    exact hr
  · have hroom : LineEvent.hangUp ∉ heardAt n es₁ := fun hmem => hdiscreet n _ hmem
    have hall : ∀ (p : ServerPacket) (sessions : List Session),
        LineEvent.hangUp ∉ heardAt n [.fanOut p sessions] := by
      intro p sessions hmem
      rw [heardAt_singleton] at hmem
      obtain ⟨_, -, hmem⟩ := List.mem_flatMap.mp hmem
      cases (LineEvent.mem_at.mp hmem).2
    rw [heardAt_append, List.mem_append, hes, List.mem_append, LineEvent.mem_at]
    constructor
    · rintro (hmem | hmem | ⟨hline, -⟩)
      · exact absurd hmem hroom
      · split at hmem
        · exact absurd hmem (hall _ _)
        · cases hmem
      · exact hline
    · exact fun hline => .inr (.inr ⟨hline, rfl⟩)

theorem parts_disconnect {token : String} {x : Unit} (hh : w.hub.Orderly)
    (hl : w.hub.Lined known) (h : (disconnect token).Does w x w' es) :
    w.hub.Parts known es w'.hub := by
  rcases disconnect_parts hh.coherent h with ⟨-, rfl, rfl⟩ | ⟨s, -, hr, hhangs⟩
  · exact (Hub.chained_parts known).nothing _
  have hfound : w.hub.Finds s := hh.current hr.present
  refine ⟨fun hs' => ((Hub.finds_removed hr).mp hs').1, fun s' hs' => ?_⟩
  rw [hhangs, Hub.finds_removed hr]
  constructor
  · intro hline
    cases hl.apart (hl.found hfound) hs' hline
    exact ⟨hfound, fun hc => hc.2 rfl⟩
  · intro hboth
    obtain ⟨hfound', hgone⟩ := hboth
    by_cases hs : s' = s
    · rw [hs]
    · exact absurd ⟨hfound', hs⟩ hgone

theorem login_line {profile : Profile} {token : String} {line : Nat} {s : Session}
    (hd : w.hub.directory.Coherent) (h : (login profile token line).Does w (.ok s) w' es) :
    s.line = line := by
  rcases login_does hd h with ⟨hx, -⟩ | ⟨_, _, _, _, _, hs, hx, -⟩
  · cases hx
  · cases hx
    rw [hs]
    rfl

theorem login_parts {profile : Profile} {token : String} {line : Nat} {s : Session}
    (hh : w.hub.Orderly) (h : (login profile token line).Does w (.ok s) w' es) (n : Nat) :
    .hangUp ∈ heardAt n es ↔ ∃ old, w.hub.directory.ofUser s.id = some old ∧ old.line = n := by
  rcases login_does hh.coherent h with
    ⟨hx, -⟩ | ⟨s', d, w₁, es₁, es₂, hs, hx, hd, hgreet, rfl, hold⟩
  · cases hx
  cases hx
  have hgreeted : LineEvent.hangUp ∉ heardAt n es₂ := by
    rw [(Session.greet_does hgreet).2.2 n]
    simp [LineEvent.mem_at, heardAt, Effect.at]
  rw [heardAt_append, List.mem_append, or_iff_left hgreeted]
  cases ho : w.hub.directory.ofUser s.id with
  | none =>
    rw [ho] at hold
    obtain ⟨-, rfl⟩ := hold
    simp
  | some old =>
    rw [ho] at hold
    obtain ⟨w₀, es₀, hhub, -, hpresent, hdisconnect, rfl⟩ := hold
    have hdirectory : w₀.hub.directory = d := by
      rw [hhub]
      rfl
    rw [heardAt_cons, List.mem_append]
    rcases disconnect_parts (hdirectory ▸ hh.coherent.entered hd) hdisconnect with
      ⟨hnone, -⟩ | ⟨s', htoken, hr, hhangs⟩
    · rw [hdirectory, hpresent] at hnone
      cases hnone
    · have hgone := hr.present
      rw [hdirectory, htoken, hpresent] at hgone
      cases hgone
      rw [hhangs, Effect.at, LineEvent.mem_at]
      simp

end Parts

/-! ## All that brings no new session -/

namespace Act

/-- `T` may be said of all that the server does, apart from packets and from logins that bring a new
session, as long as `J` holds of memory. -/
structure Rule (known : List Session) (n : Nat) (J : Hub → Prop)
    (T : Hub → List Effect → Hub → Prop) : Prop where
  chained : Chained T
  aside : ∀ {r : Routine Unit} {x v v' es}, r.Aside → r.Does v x v' es → T v.hub es v'.hub
  warned : ∀ h s, T h [.deliver (.error "server is shutting down") s] h
  close : ∀ {ref x v v' es}, v.Kept (· ∈ known) n → v.hub.Lined known → J v.hub →
    (RoomNews.closeRoom ref).Does v x v' es → J v'.hub ∧ T v.hub es v'.hub
  disconnect : ∀ {token x v v' es}, v.Kept (· ∈ known) n → v.hub.Lined known → J v.hub →
    (RhythmLobby.disconnect token).Does v x v' es → J v'.hub ∧ T v.hub es v'.hub

variable {known : List Session} {n : Nat} {w w' : World} {es : List Effect} {J : Hub → Prop}
  {T : Hub → List Effect → Hub → Prop} {act : Act} {o : Outcome}

/-- it may be said of what changes neither rooms nor who is online, and tells nobody -/
theorem Rule.change (hR : Rule known n J T) {f : Hub → Hub} (hf : ∀ h,
    (f h).directory = h.directory ∧ (f h).openRooms = h.openRooms ∧ (f h).rooms = h.rooms)
    (w : World) : T w.hub [] (f w.hub) := hR.aside (within_change hf) (change_does f w)

/-- it may be said of a shutdown, in which rooms close first and sessions are dismissed then -/
theorem Rule.shutdown (hR : Rule known n J T) : RhythmLobby.shutdown.Tells
    (fun v => v.Kept (· ∈ known) n ∧ v.hub.Lined known ∧ J v.hub) T
    fun _ v => v.Kept (· ∈ known) n ∧ v.hub.Lined known ∧ J v.hub := by
  have hT := hR.chained
  refine tells_shutdown hT (fun ref => ?_) fun s => tells_bind hT
    (Q := fun _ v => v.Kept (· ∈ known) n ∧ v.hub.Lined known ∧ J v.hub) ?_ fun _ => ?_
  · intro v x v' es hboth h
    obtain ⟨hk, hl, hJ⟩ := hboth
    obtain ⟨hJ', ht⟩ := hR.close hk hl hJ h
    have hkept := World.takes_kept_of_room (RoomNews.roomTask_closeRoom ref) hk h.ends
    have hparts : v.hub.Parts known es v'.hub := (RoomNews.discreet_closeRoom ref).parts h
    exact ⟨⟨hkept, hl.fewer hparts.fewer, hJ'⟩, ht⟩
  · intro v x v' es hboth h
    obtain ⟨hk, hl, hJ⟩ := hboth
    have hsame : v'.hub = v.hub := ((s.silent_send _).ends h.ends).1
    have hkept := World.takes_kept_of_silent (s.silent_send _) hk h.ends
    obtain ⟨-, -, rfl⟩ := does_emit h
    exact ⟨⟨hkept, hsame ▸ hl, hsame ▸ hJ⟩, hsame ▸ hR.warned v.hub s⟩
  · intro v x v' es hboth h
    obtain ⟨hk, hl, hJ⟩ := hboth
    obtain ⟨hJ', ht⟩ := hR.disconnect hk hl hJ h
    have hparts := parts_disconnect hk.sessions.orderly hl h
    exact ⟨⟨takes_disconnect s.token hk h.ends, hl.fewer hparts.fewer, hJ'⟩, ht⟩

/-- it may be said of every act that brings no new session, if it may be said of the packet -/
theorem Rule.tells (hR : Rule known n J T) (hk : w.Kept (· ∈ known) n) (hl : w.hub.Lined known)
    (hJ : J w.hub) (h : act.task.Does w o w' es) (hnone : o.session? = none)
    (hpacket : ∀ s p x, act = .packet s p → (s.dispatch p).Does w x w' es → T w.hub es w'.hub) :
    T w.hub es w'.hub := by
  have hdoes := act.does h
  cases act with
  | login profile token line =>
    obtain ⟨x, rfl, hlogin⟩ := hdoes
    rcases login_does hk.sessions.orderly.coherent hlogin with
      ⟨-, rfl, rfl⟩ | ⟨s, d, w₁, es₁, es₂, hs, rfl, -⟩
    · exact hR.change (f := fun h => (h.addSession profile token line).2)
        (fun _ => ⟨rfl, rfl, rfl⟩) w
    · cases hnone
  | packet s p =>
    obtain ⟨x, -, hx⟩ := hdoes
    exact hpacket s p x rfl hx
  | disconnect token => exact (hR.disconnect hk hl hJ hdoes.2).2
  | shutdown => exact (hR.shutdown ⟨hk, hl, hJ⟩ hdoes.2).2
  | elapse clock database =>
    obtain ⟨-, rfl, rfl⟩ := hdoes
    exact hR.change (f := fun h => { h with clock := clock, database := database })
      (fun _ => ⟨rfl, rfl, rfl⟩) w

theorem rule_parts : Rule known n (fun _ => True) (Hub.Parts known) where
  chained := Hub.chained_parts known
  aside hr h := hr.discreet.parts h
  warned h s := ⟨id, fun s' _ => by simp [Effect.at, LineEvent.mem_at]⟩
  close _ _ _ h := ⟨trivial, (RoomNews.discreet_closeRoom _).parts h⟩
  disconnect hk hl _ h := ⟨trivial, parts_disconnect hk.sessions.orderly hl h⟩

theorem brings {s : Session} (h : act.task.Does w o w' es)
    (hs : o.session? = some s) : ∃ profile token line, act = .login profile token line ∧
      (RhythmLobby.login profile token line).Does w (.ok s) w' es := by
  have hdoes := act.does h
  cases act with
  | login profile token line =>
    obtain ⟨x, rfl, hlogin⟩ := hdoes
    cases x with
    | error e => cases hs
    | ok s' =>
      cases hs
      exact ⟨profile, token, line, rfl, hlogin⟩
  | packet s p =>
    obtain ⟨x, rfl, -⟩ := hdoes
    cases hs
  | disconnect token =>
    rw [hdoes.1] at hs
    cases hs
  | shutdown =>
    rw [hdoes.1] at hs
    cases hs
  | elapse clock database =>
    rw [hdoes.1] at hs
    cases hs

end Act

/-! ## Lines and sessions -/

namespace World

/-- open lines belong to sessions that are found -/
structure LinesMatch (known : List Session) (w : World) : Prop where
  lined : w.hub.Lined known
  lines : ∀ s ∈ known, ∃ l, w.lines[s.line]? = some l ∧ (l.closed = true ↔ ¬ w.hub.Finds s)

section LinesMatch

variable {α : Type} {steady : Nat → Prop} {known : List Session} {n : Nat} {v v' w w' : World}
  {es : List Effect}

theorem LinesMatch.parted {r : Routine α} {x : α} (ha : w.LinesMatch known)
    (hw : r.DoesAmid (.sparing steady) w x w' es) (hp : w.hub.Parts known es w'.hub) :
    w'.LinesMatch known where
  lined := ha.lined.fewer hp.fewer
  lines s hs := by
    obtain ⟨l, hl, hclosed⟩ := ha.lines s hs
    obtain ⟨l', hl', hclosed'⟩ := hw.closed_line hl
    refine ⟨l', hl', ?_⟩
    rw [hclosed', hclosed, hp.hungUp s hs]
    have hfewer := hp.fewer (s := s)
    grind

theorem LinesMatch.joined {r : Routine α} {x : α} {profile : Profile} {token : String} {line : Nat}
    {s : Session} (ha : w.LinesMatch known) (hfree : ∀ s ∈ known, s.line ≠ line)
    (hopen : ∃ l, w.lines[line]? = some l ∧ l.closed = false)
    (hw : r.DoesAmid (.sparing steady) w x w' es) (hk : v.Kept (· ∈ known) n) (hv : v.hub = w.hub)
    (hv' : v'.hub = w'.hub) (h : (login profile token line).Does v (.ok s) v' es) :
    w'.LinesMatch (known ++ [s]) := by
  have hh := hk.sessions.orderly
  have hcoherent := hh.coherent
  have hline := login_line hcoherent h
  obtain ⟨s', hx, -, -, hadmitted, -⟩ :
      ∃ s', (.ok s : Except RegistryError Session) = .ok s' ∧ _ := by
    rcases login_admitted hk.sessions.reliable hh h.ends with ⟨hx, -⟩ | hs'
    · cases hx
    · exact hs'
  cases hx
  have hhangs := login_parts hh h
  rw [hv] at hadmitted hhangs hcoherent
  rw [hv'] at hadmitted
  -- a displaced session is known, and its line is not the new one
  have hold : ∀ {old}, w.hub.directory.ofUser s.id = some old → old ∈ known ∧ old.id = s.id :=
    fun ho => ⟨ha.lined.found (Hub.finds_of_ofUser hcoherent ho), hcoherent.user ho⟩
  refine ⟨ha.lined.joined hadmitted (hline ▸ hfree), fun s' hs' => ?_⟩
  rcases List.mem_append.mp hs' with hs' | hs'
  · obtain ⟨l, hl, hclosed⟩ := ha.lines s' hs'
    obtain ⟨l', hl', hclosed'⟩ := hw.closed_line hl
    refine ⟨l', hl', ?_⟩
    have hne : s' ≠ s := fun heq => hfree s' hs' (heq ▸ hline)
    rw [hclosed', hclosed, hhangs, hadmitted.finds, or_iff_right hne]
    constructor
    · rintro (hlost | ⟨old, ho, hoe⟩) ⟨hfound, hid⟩
      · exact hlost hfound
      · cases ha.lined.apart (hold ho).1 hs' hoe
        exact hid (hold ho).2
    · intro hlost
      by_cases hfound : w.hub.Finds s'
      · have hid : s'.id = s.id := Classical.not_not.mp fun hid => hlost ⟨hfound, hid⟩
        exact .inr ⟨s', hid ▸ hfound, rfl⟩
      · exact .inl hfound
  · rw [List.mem_singleton.mp hs', hline]
    obtain ⟨l, hl, hclosed⟩ := hopen
    obtain ⟨l', hl', hclosed'⟩ := hw.closed_line hl
    refine ⟨l', hl', ?_⟩
    rw [hclosed', hclosed, hhangs, hadmitted.finds]
    simp only [Bool.false_eq_true, false_or, true_or, not_true, iff_false]
    intro hexists
    obtain ⟨old, ho, hoe⟩ := hexists
    exact hfree old (hold ho).1 hoe

end LinesMatch
end World

/-! ## All acts -/

section Course

variable {database : Database} {timeouts : Timeouts} {flood : FloodLimits} {clock : Int64}
  {steady : Nat → Prop} {start w : World} {past : List Act} {outcomes : List Outcome}

theorem Course.linesMatch (h : Course Act.Proper (.sparing steady) start past outcomes w)
    (hstart : start.hub = .start database timeouts flood clock) :
    w.LinesMatch (known outcomes) := by
  induction h using Course.induction with
  | nil =>
    refine ⟨⟨fun {s} hs => ?_, nofun⟩, nofun⟩
    rw [Hub.Finds, hstart] at hs
    cases hs
  | @snoc past outcomes w w' act o es hpast hmay hgo ih =>
    obtain ⟨v, hv, hkept⟩ := hpast.ofKnown.kept_amid hstart
    obtain ⟨v', hdoes, hv'⟩ := act.oblivious_task.does hgo hv
    rw [known_snoc]
    cases ho : o.session? with
    | none =>
      have hparts := Act.rule_parts.tells hkept (hv ▸ ih.lined) trivial hdoes ho
        fun s p x _ hpacket => (s.discreet_dispatch p).parts hpacket
      rw [hv, hv'] at hparts
      rw [Option.toList_none, List.append_nil]
      exact ih.parted hgo hparts
    | some s =>
      obtain ⟨profile, token, line, rfl, hlogin⟩ := Act.brings hdoes ho
      exact ih.joined hmay.1 hmay.2 hgo hkept hv hv' hlogin

/-- After any acts amid failures of the store and of lines, the same sessions are found by token and
by user, each under its own token and its own user, and no user has two of them.
Every session that has been online is found exactly as long as it is in use, and exactly as long as
the server has not hung up on it. -/
theorem sessions_live_and_die_whole (h : Course Act.Proper (.sparing steady) start past outcomes w)
    (hstart : start.hub = .start database timeouts flood clock) :
    (∀ s, w.hub.directory.ofToken s.token = some s ↔ w.hub.directory.ofUser s.id = some s) ∧
    (∀ token s, w.hub.directory.ofToken token = some s → s.token = token) ∧
    (∀ user s, w.hub.directory.ofUser user = some s → s.id = user) ∧
    (∀ token token' s s', w.hub.directory.ofToken token = some s →
      w.hub.directory.ofToken token' = some s' → s.id = s'.id → s = s') ∧
    ∀ s ∈ known outcomes,
      (w.hub.directory.ofUser s.id = some s ↔ (w.hub.stateOf s).retired = false) ∧
      (w.hub.directory.ofUser s.id = some s ↔
        ∃ l, w.lines[s.line]? = some l ∧ l.closed = false) := by
  obtain ⟨v, hv, hkept⟩ := h.ofKnown.kept_amid hstart
  have hh : w.hub.Orderly := hv ▸ hkept.sessions.orderly
  refine ⟨fun s => ⟨hh.current, hh.coherent.known⟩, fun _ _ => hh.coherent.token,
    fun _ _ => hh.coherent.user, fun _ _ s s' hs hs' hid => ?_, fun s hs => ⟨?_, ?_⟩⟩
  · have hfound := hh.current hs
    rw [hid, hh.current hs'] at hfound
    exact (Option.some.inj hfound).symm
  · have hrightful : w.hub.Rightful s := hv ▸ hkept.sessions.rightful s hs
    exact ⟨hh.used, hrightful.online⟩
  · obtain ⟨l, hl, hclosed⟩ := (h.linesMatch hstart).lines s hs
    constructor
    · intro hfound
      exact ⟨l, hl, Bool.eq_false_iff.mpr fun hc => hclosed.mp hc hfound⟩
    · intro hexists
      obtain ⟨l', hl', hopen⟩ := hexists
      rw [hl] at hl'
      cases hl'
      refine Classical.not_not.mp fun hlost => ?_
      rw [hclosed.mpr hlost] at hopen
      cases hopen

end Course

open Act in
theorem sessions_live_and_die_whole_evening :
    let w := following threeLines evening
    (∀ s, w.hub.directory.ofToken s.token = some s ↔ w.hub.directory.ofUser s.id = some s) ∧
    (∀ token s, w.hub.directory.ofToken token = some s → s.token = token) ∧
    (∀ user s, w.hub.directory.ofUser user = some s → s.id = user) ∧
    (∀ token token' s s', w.hub.directory.ofToken token = some s →
      w.hub.directory.ofToken token' = some s' → s.id = s'.id → s = s') ∧
    ∀ s ∈ known greetings,
      (w.hub.directory.ofUser s.id = some s ↔ (w.hub.stateOf s).retired = false) ∧
      (w.hub.directory.ofUser s.id = some s ↔ ∃ l, w.lines[s.line]? = some l ∧ l.closed = false) :=
  sessions_live_and_die_whole (course_evening (.sparing fun _ => True)).proper rfl

/-- the first session of the host has been torn down, and the second one is in use -/
example : (Act.following Act.threeLines Act.evening).hub.directory.ofUser 1 = some Act.again ∧
    ((Act.following Act.threeLines Act.evening).hub.stateOf Act.host).retired = true := by
  decide

end RhythmLobby
