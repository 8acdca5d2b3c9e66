import RhythmLobby.Proofs.Mirror
import RhythmLobby.Proofs.Room.Places

/-!
# Who is in a room

A user leaves its room when its session is torn down.  A packet of the session may still be carried
out afterwards, and whoever it puts into a room stays there.

* `placed_login`, `placed_disconnect`, `placed_shutdown`   users come online and go;
* `Act.placed`                        one act;
* `Strayed`                           a user that was put into a room when it was not online;
* `users_in_rooms_online_or_strayed`  all others in rooms are online;
* `user_in_room_offline`              there are such users.
-/

namespace RhythmLobby
open Cache Routine World

/-! ## Users come online and go -/

section Presence

variable {astray : Int32 → Prop} {known : Session → Prop} {n : Nat} {w w' : World}

/-- a session has been taken out, and its user may still be noted -/
theorem Hub.Placed.removed {h : Hub} {d : Directory} {s : Session} (hp : h.Placed astray)
    (hd : h.directory.Removed s d) :
    Hub.Placed (fun user => astray user ∨ user = s.id) { h with directory := d } := by
  refine ⟨hp.noted, fun {user id} hu => ?_⟩
  rw [Online]
  show d.ofUser user ≠ none ∨ _
  rw [hd.ofUser]
  by_cases huser : s.id = user
  · exact .inr (.inr huser.symm)
  · rw [if_neg fun hc => huser hc.1]
    exact (hp.present hu).imp_right .inl

theorem Hub.Placed.entered {h : Hub} {d : Directory} {s : Session} (hp : h.Placed astray)
    (hd : h.directory.Entered s d) : Hub.Placed astray { h with directory := d } := by
  refine ⟨hp.noted, fun {user id} hu => ?_⟩
  rw [Online]
  show d.ofUser user ≠ none ∨ _
  rw [hd.ofUser]
  split
  · exact .inl (Option.some_ne_none s)
  · exact hp.present hu

theorem placed_disconnect {token : String} {x : Unit} (hw : w.RoomsKept n)
    (hd : w.hub.directory.Coherent) (hp : w.hub.Placed astray)
    (h : (disconnect token).Ends w x w') : w'.hub.Placed astray := by
  rw [disconnect_eq] at h
  obtain ⟨found, w₁, h₁, h⟩ := ends_bind.mp h
  obtain ⟨hfound, rfl⟩ := ends_transact.mp h₁
  rcases deregister_cases hd token with ⟨hnone, -⟩ | ⟨s, d, hsome, -, hremoved⟩
  · rw [hnone] at hfound h
    subst hfound
    obtain ⟨-, rfl⟩ := ends_done.mp h
    exact hp
  · rw [hsome] at hfound h
    subst hfound
    obtain ⟨_, w₂, h₂, h⟩ := ends_bind.mp h
    rw [ends_change] at h₂
    obtain ⟨_, w₃, h₃, h⟩ := ends_bind.mp h
    -- while the user is taken out of its room, it is offline already
    have hplaced : w₂.hub.Placed fun user => astray user ∨ user = s.id := by
      rw [h₂]
      exact (hp.removed hremoved).sameSeats ⟨rfl, rfl, rfl, fun _ => rfl⟩
    have hroomsKept : w₂.RoomsKept n := by
      rw [h₂]
      exact hw.elsewhere ⟨rfl, rfl, rfl⟩ rfl
    obtain ⟨hfewer, hgone⟩ := RoomNews.fewer_leaveCurrent hroomsKept hplaced h₃
    have hcalm : ((Routine.update (.noSession s.token s.id)).bind fun _ => s.farewell).Calm := by
      refine (calm_update _).bind fun _ => ?_
      exact s.silent_farewell.calm
    rw [hcalm.ends h]
    refine (hplaced.fewer hfewer).mono fun user hu => .inr ?_
    rcases hu with ⟨ha | rfl, hnoted⟩
    · exact ha
    · exact absurd hnoted hgone

theorem calm_greet (s : Session) : s.greet.Calm := by
  have hgreeted : s.welcome.Calm := s.silent_welcome.calm
  exact (calm_update _).bind fun _ => (calm_read _).bind fun _ => (calm_update _).bind fun _ =>
    hgreeted

theorem placed_login {profile : Profile} {token : String} {line : Nat}
    {x : Except RegistryError Session} (hw : w.RoomsKept n) (hd : w.hub.directory.Coherent)
    (hp : w.hub.Placed astray) (h : (login profile token line).Ends w x w') :
    w'.hub.Placed astray := by
  rw [login_eq] at h
  obtain ⟨s, w₁, h₁, h⟩ := ends_bind.mp h
  obtain ⟨-, rfl⟩ := ends_transact.mp h₁
  obtain ⟨found, w₂, h₂, h⟩ := ends_bind.mp h
  obtain ⟨hfound, hw₂⟩ := ends_transact.mp h₂
  rcases register_cases s (w.hub.addSession profile token line).2 with
    ⟨hrefused, -⟩ | ⟨d, hentered, hadded⟩
  · rw [hrefused] at hfound hw₂
    subst hfound
    obtain ⟨-, rfl⟩ := ends_done.mp h
    rw [hw₂]
    exact hp.sameSeats ⟨rfl, rfl, rfl, fun _ => rfl⟩
  · rw [hentered] at hfound hw₂
    subst hfound
    have hplaced : w₂.hub.Placed astray := by
      rw [hw₂]
      exact (hp.entered hadded).sameSeats ⟨rfl, rfl, rfl, fun _ => rfl⟩
    dsimp only at h
    split at h
    · cases ‹Except.ok _ = Except.error _›
    · rw [(calm_greet s).ends h]
      exact hplaced
    · rename_i old _
      obtain ⟨_, w₃, h₃, h⟩ := ends_bind.mp h
      obtain ⟨_, w₄, h₄, h⟩ := ends_bind.mp h
      have hsent := (calm_emit _).ends h₃
      rw [(calm_greet s).ends h]
      have hroomsKept : w₃.RoomsKept n := by
        refine takes_of_silent (old.silent_send _) (?_ : w₂.RoomsKept n) h₃
        rw [hw₂]
        exact hw.elsewhere ⟨rfl, rfl, rfl⟩ rfl
      refine placed_disconnect hroomsKept ?_ (hsent ▸ hplaced) h₄
      rw [hsent, hw₂]
      exact Directory.Coherent.entered hd hadded

theorem placed_shutdown {x : Unit} (hw : w.Kept known n) (hp : w.hub.Placed astray)
    (h : shutdown.Ends w x w') : w'.hub.Placed astray := by
  have hkept : shutdown.Takes (fun v => v.Kept known n ∧ v.hub.Placed astray)
      fun _ v => v.Kept known n ∧ v.hub.Placed astray := by
    refine takes_bind (takes_bind (takes_read fun _ hv => hv) fun refs =>
      takes_each (fun ref => ?_) refs) fun _ =>
        takes_bind (takes_read fun _ hv => hv) fun sessions => takes_each (fun s => ?_) sessions
    · intro v y v' hv hclose
      refine ⟨takes_kept_of_room (RoomNews.roomTask_closeRoom ref) hv.1 hclose, ?_⟩
      have hfewer := RoomNews.fewer_closeRoom hv.1.rooms hv.2 hclose
      exact (hv.2.fewer hfewer).mono fun _ hu => .inr hu.1
    · refine takes_bind (Q := fun _ v => v.Kept known n ∧ v.hub.Placed astray) ?_ fun _ => ?_
      · intro v y v' hv hsend
        refine ⟨takes_kept_of_silent (s.silent_send _) hv.1 hsend, ?_⟩
        rw [(calm_emit _).ends hsend]
        exact hv.2
      · intro v y v' hv hgo
        exact ⟨takes_disconnect s.token hv.1 hgo,
          placed_disconnect hv.1.rooms hv.1.sessions.orderly.coherent hv.2 hgo⟩
  exact (hkept ⟨hw, hp⟩ h).2

end Presence

/-! ## Acts -/

section Acts

variable {astray : Int32 → Prop} {known : List Session} {n : Nat} {w w' : World} {act : Act}
  {o : Outcome} {es : List Effect}

/-- Everybody stays noted, unless the act is a packet that puts its user into a room. -/
theorem Act.placed (h : act.task.Does w o w' es) (hmay : act.OfKnown known w)
    (hw : w.Kept (· ∈ known) n) (hp : w.hub.Placed astray) : w'.hub.Placed astray ∨
      ∃ s p, act = packet s p ∧ o = .packet (.ok ()) ∧ s ∈ known ∧ p.Enters ∧
        (s.dispatch p).Ends w (.ok ()) w' ∧ w'.hub.Received astray s.id := by
  have hcoherent := hw.sessions.orderly.coherent
  have hdoes := act.does h
  cases act with
  | login profile token line =>
    obtain ⟨x, -, hlogin⟩ := hdoes
    exact .inl (placed_login hw.rooms hcoherent hp hlogin.ends)
  | packet s p =>
    obtain ⟨x, ho, hpacket⟩ := hdoes
    rcases s.placed_dispatch hw.rooms hp hpacket.ends with ⟨he, hx, hreceived⟩ | ⟨-, hplaced⟩
    · rw [hx] at ho hpacket
      exact .inr ⟨s, p, rfl, ho, hmay, he, hpacket.ends, hreceived⟩
    · exact .inl hplaced
  | disconnect token => exact .inl (placed_disconnect hw.rooms hcoherent hp hdoes.2.ends)
  | shutdown => exact .inl (placed_shutdown hw hp hdoes.2.ends)
  | elapse clock database =>
    obtain ⟨-, rfl, -⟩ := hdoes
    exact .inl (hp.sameSeats ⟨rfl, rfl, rfl, fun _ => rfl⟩)

/-- whoever asks for a place, nobody comes online or goes -/
theorem Session.online_dispatch {s : Session} {p : ClientPacket} {x : Except Refusal Unit}
    (he : p.Enters) (hw : w.Reliable) (h : (s.dispatch p).Ends w x w') (user : Int32) :
    w'.hub.Online user ↔ w.hub.Online user := by
  obtain ⟨w₁, h, hsame⟩ := s.handle_of_dispatch h
  have hroom : p.OfRoom := by
    cases p with
    | roomCreate => trivial
    | roomJoin => trivial
    | _ => exact he.elim
  obtain ⟨⟨hdirectory, -⟩, -⟩ := (s.roomTask_handle (n := 0) hroom).only.ends h hw
  rw [Hub.Online, Hub.Online, hsame, hdirectory]

end Acts

/-! ## All acts -/

/-- The user was put into a room by a packet that was carried out while the user was not online,
and it has not been online since. -/
inductive Strayed (out : Outside) (start : World) :
    List Act → List Outcome → World → Int32 → Prop
  | enters {past : List Act} {outcomes : List Outcome} {w w' : World} {s : Session}
      {p : ClientPacket} {es : List Effect} : Course Act.OfKnown out start past outcomes w →
      s ∈ known outcomes → p.Enters → ¬ w.hub.Online s.id →
      (Act.packet s p).task.DoesAmid out w (.packet (.ok ())) w' es →
      Strayed out start (past ++ [.packet s p]) (outcomes ++ [.packet (.ok ())]) w' s.id
  | stays {past : List Act} {outcomes : List Outcome} {w w' : World} {act : Act} {o : Outcome}
      {es : List Effect} {user : Int32} : Strayed out start past outcomes w user →
      act.OfKnown (known outcomes) w → act.task.DoesAmid out w o w' es → ¬ w'.hub.Online user →
      Strayed out start (past ++ [act]) (outcomes ++ [o]) w' user

section Course

variable {out : Outside} {database : Database} {timeouts : Timeouts} {flood : FloodLimits}
  {clock : Int64} {start w : World} {past : List Act} {outcomes : List Outcome}

theorem Course.placed (h : Course Act.OfKnown out start past outcomes w)
    (hstart : start.hub = .start database timeouts flood clock) :
    w.hub.Placed (Strayed out start past outcomes w) := by
  induction h using Course.induction with
  | nil =>
    rw [hstart]
    exact ⟨nofun, nofun⟩
  | @snoc past outcomes w w' act o es hpast hmay hgo ih =>
    have hstays : ∀ user, Strayed out start past outcomes w user →
        w'.hub.Online user ∨ Strayed out start (past ++ [act]) (outcomes ++ [o]) w' user := by
      intro user hu
      by_cases ho : w'.hub.Online user
      · exact .inl ho
      · exact .inr (.stays hu hmay hgo ho)
    obtain ⟨v, hv, hkept⟩ := hpast.kept_amid hstart
    obtain ⟨v', hdoes, hv'⟩ := act.oblivious_task.does hgo hv
    have hmayAlone : act.OfKnown (known outcomes) v := hmay
    rcases Act.placed hdoes hmayAlone hkept (hv ▸ ih) with
      hplaced | ⟨s, p, rfl, rfl, hs, he, hends, hreceived⟩
    · rw [← hv']
      exact hplaced.mono (hv' ▸ hstays)
    · rw [← hv']
      refine hreceived.placed.mono fun user hu => ?_
      rw [hv']
      rcases hu with hu | rfl
      · exact hstays user hu
      by_cases ho : w'.hub.Online s.id
      · exact .inl ho
      have honline := s.online_dispatch he hkept.rooms.reliable hends s.id
      rw [hv, hv'] at honline
      exact .inr (.enters hpast hs he (ho ∘ honline.mpr) hgo)

/-- After any acts on a server that has just started, amid any changes from outside, whoever is in a
room or noted to be in one is online, or was put there by a packet that was carried out while the
user was not online.  Every such packet that is not refused leaves a user in a room who is not
online. -/
theorem users_in_rooms_online_or_strayed
    (h : Course Act.OfKnown out start past outcomes w)
    (hstart : start.hub = .start database timeouts flood clock) :
    (∀ user, w.hub.Seated user ∨ w.hub.Noted user →
      w.hub.Online user ∨ Strayed out start past outcomes w user) ∧
    (∀ (s : Session) (p : ClientPacket) (w' : World) (es : List Effect), p.Enters →
      ¬ w.hub.Online s.id → (s.dispatch p).DoesAmid out w (.ok ()) w' es →
        w'.hub.Seated s.id ∧ w'.hub.Noted s.id ∧ ¬ w'.hub.Online s.id) := by
  have hplaced := h.placed hstart
  refine ⟨fun user hu => hu.elim hplaced.of_seated hplaced.of_noted,
    fun s p w' es he hoffline hgo => ?_⟩
  obtain ⟨v, hv, hkept⟩ := h.kept_amid hstart
  obtain ⟨v', hdoes, hv'⟩ := (s.oblivious_dispatch p).does hgo hv
  rcases s.placed_dispatch hkept.rooms (hv ▸ hplaced) hdoes.ends with
    ⟨-, -, hreceived⟩ | ⟨hnot, -⟩
  · have honline := s.online_dispatch he hkept.rooms.reliable hdoes.ends s.id
    rw [hv, hv'] at honline
    rw [hv'] at hreceived
    exact ⟨hreceived.seated, hreceived.noted, hoffline ∘ honline.mp⟩
  · exact absurd ⟨he, rfl⟩ hnot

end Course

/-! ## A room is opened after its host has gone -/

namespace Act

/-- the second session of the host -/
def second : Session := ⟨1, "T2", carol, 1⟩

/-- the host has come online again and has gone, and then a packet of its first session is carried
out -/
def lateArena : List Act :=
  [login carol "T1" 0, login carol "T2" 1, disconnect "T2", packet host arena]

def lateOutcomes : List Outcome :=
  [.login (.ok host), .login (.ok second), .nothing, .packet (.ok ())]

def haunted : World := following .blank lateArena

theorem course_lateArena (out : Outside) :
    Course OfKnown out .blank lateArena lateOutcomes haunted := by
  have hnone : Course OfKnown out .blank [] [] .blank := .nil
  have hone : Course OfKnown out .blank (lateArena.take 1) (lateOutcomes.take 1)
      (following .blank (lateArena.take 1)) := hnone.after 100 trivial rfl
  have htwo : Course OfKnown out .blank (lateArena.take 2) (lateOutcomes.take 2)
      (following .blank (lateArena.take 2)) := hone.after 100 trivial rfl
  have hthree : Course OfKnown out .blank (lateArena.take 3) (lateOutcomes.take 3)
      (following .blank (lateArena.take 3)) := htwo.after 100 trivial rfl
  exact hthree.after 100 (List.mem_cons_self ..) rfl

end Act

open Act in
theorem user_in_room_offline : ¬ ∀ (past : List Act) (outcomes : List Outcome) (w : World),
    Course OfKnown .none .blank past outcomes w → ∀ user,
      w.hub.Seated user ∨ w.hub.Noted user → w.hub.Online user := by
  intro h
  have hnoted : haunted.hub.Noted 1 := by
    rw [Hub.Noted]
    decide +kernel
  apply h _ _ _ (course_lateArena .none) 1 (.inr hnoted)
  decide +kernel

open Act in
theorem users_in_rooms_online_or_strayed_lateArena :
    (∀ user, haunted.hub.Seated user ∨ haunted.hub.Noted user → haunted.hub.Online user ∨
      Strayed .none .blank lateArena lateOutcomes haunted user) ∧
    (∀ (s : Session) (p : ClientPacket) (w' : World) (es : List Effect), p.Enters →
      ¬ haunted.hub.Online s.id → (s.dispatch p).DoesAmid .none haunted (.ok ()) w' es →
        w'.hub.Seated s.id ∧ w'.hub.Noted s.id ∧ ¬ w'.hub.Online s.id) :=
  users_in_rooms_online_or_strayed (course_lateArena .none) rfl

end RhythmLobby
