import RhythmLobby.Proofs.Hub.Slot
import RhythmLobby.Proofs.Room.Footprint
import RhythmLobby.Proofs.Session.Directory

/-!
# What becomes of a token

Users come online and go offline, and the tasks that see to it run side by side.  For one token
each of these tasks goes through a few phases: it enters the session and writes the record later,
or it takes the session out and deletes the record later.

* `PresenceCall`                      a user comes online, or a token goes out of use;
* `TokenPhase`                        how far a task has come with a token;
* `tokenDiscipline`                   the steps from one phase to the next;
* `keeps_login`, `keeps_disconnect`   both tasks keep to it.
-/

namespace RhythmLobby
open Cache

/-- a user comes online with a token, or a token goes out of use -/
inductive PresenceCall where
  | login (profile : Profile) (token : String) (line : Nat)
  | disconnect (token : String)

namespace PresenceCall

def task : PresenceCall → Routine Unit
  | login profile token line => (RhythmLobby.login profile token line).void
  | disconnect token => RhythmLobby.disconnect token

/-- the calls, where no two users ever come online with one token -/
def traffic : Traffic PresenceCall where
  task := task
  may c i := ∀ profile token line, i = login profile token line →
    ∀ profile' line', login profile' token line' ∉ c.past
  whole _ _ _ := False

end PresenceCall

/-! ## How far a task has come -/

/-- how far a task has come with a token -/
inductive TokenPhase where
  | idle
  /-- a session with the token is about to be entered -/
  | entering
  /-- the session has been entered, and its record is to be written -/
  | publishing
  /-- the session has been taken out, and its record is to be deleted -/
  | deleting
  deriving DecidableEq

/-- one look at memory -/
inductive TokenTurn (token : String) : Hub → TokenPhase → Hub → TokenPhase → Prop
  | same {h h' : Hub} {σ : TokenPhase} :
      (h'.directory.ofToken token).isSome = (h.directory.ofToken token).isSome →
      TokenTurn token h σ h' σ
  | refuse {h : Hub} : TokenTurn token h .entering h .idle
  | enter {h h' : Hub} : h.directory.ofToken token = none →
      (h'.directory.ofToken token).isSome = true → TokenTurn token h .entering h' .publishing
  | remove {h h' : Hub} : (h.directory.ofToken token).isSome = true →
      h'.directory.ofToken token = none → TokenTurn token h .idle h' .deleting

/-- one effect -/
inductive TokenEmit (token : String) (user : Int32) : TokenPhase → Effect → TokenPhase → Prop
  | other {e : Effect} {σ : TokenPhase} :
      Slot.Untouched (Key.session token).text e → TokenEmit token user σ e σ
  | publish : TokenEmit token user .publishing (.update (.session token user)) .idle
  | delete : TokenEmit token user .deleting (.update (.noSession token user)) .idle

/-- tasks that deal with a token of a user -/
def tokenDiscipline (token : String) (user : Int32) : Discipline TokenPhase where
  sound h := h.directory.Coherent ∧ ∀ s, h.directory.ofToken token = some s → s.id = user
  drift _ _ := True
  turn h σ h' σ' :=
    (h.directory.Coherent ∧ (∀ s, h.directory.ofToken token = some s → s.id = user) →
      h'.directory.Coherent ∧ ∀ s, h'.directory.ofToken token = some s → s.id = user) ∧
    TokenTurn token h σ h' σ'
  emit _ σ e σ' := TokenEmit token user σ e σ'
  rest σ := σ = .idle
  turn_refl _ _ := ⟨id, .same rfl⟩
  drift_refl _ := trivial
  drift_trans _ _ := trivial
  sound_turn hs ht := ht.1 hs
  drift_turn _ _ := trivial

namespace TokenPhase

variable {token : String} {user : Int32} {α β : Type}

theorem keeps_aside {moves : Hub → Hub → Prop} {acts : Effect → Prop} {r : Routine α}
    (hr : r.Within moves acts) (hm : ∀ h h', moves h h' → h'.directory = h.directory)
    (he : ∀ e, acts e → Slot.Untouched (Key.session token).text e) (σ : TokenPhase) (h : Hub) :
    (tokenDiscipline token user).Keeps r (fun _ _ σ' => σ' = σ) h σ := by
  refine Discipline.keeps_mono (Discipline.keeps_within hr ?_ ?_ h) fun _ _ _ hd => hd.2
  · intro h h' hs hmoves
    have hdir := hm h h' hmoves
    refine ⟨fun _ => ?_, .same (by rw [hdir])⟩
    rw [hdir]
    exact hs
  · exact fun _ e _ hacts => .other (he e hacts)

theorem keeps_silent {r : Routine α} (hr : r.Silent) (σ : TokenPhase) (h : Hub) :
    (tokenDiscipline token user).Keeps r (fun _ _ σ' => σ' = σ) h σ :=
  keeps_aside hr (fun h h' hm => by rw [hm]) (fun e he r => e.leaves_of_call?_eq_none he _ r) σ h

theorem keeps_roomsOnly {r : Routine α} (hr : r.RoomsOnly) (σ : TokenPhase) (h : Hub) :
    (tokenDiscipline token user).Keeps r (fun _ _ σ' => σ' = σ) h σ :=
  keeps_aside hr (fun _ _ hm => hm.1) (fun _ he r => he.leaves (outsideRooms_text id) r) σ h

theorem keeps_update {u : Update} (hu : ∀ r, u.call.leaves (Key.session token).text r = r)
    (σ : TokenPhase) (h : Hub) :
    (tokenDiscipline token user).Keeps (Routine.update u) (fun _ _ σ' => σ' = σ) h σ :=
  Discipline.keeps_update fun _ _ _ => ⟨σ, .other hu, rfl⟩

theorem keeps_transact {act : Hub → β × Hub} {P : β → Prop}
    (ha : ∀ h, (act h).2.directory = h.directory) (hp : ∀ h, P (act h).1) (σ : TokenPhase)
    (h : Hub) : (tokenDiscipline token user).Keeps (Routine.transact act)
      (fun x _ σ' => P x ∧ σ' = σ) h σ := by
  refine Discipline.keeps_transact fun h₁ _ hs => ⟨σ, ⟨fun _ => ?_, .same (by rw [ha])⟩, hp h₁, rfl⟩
  rw [ha]
  exact hs

/-! ## What the tasks do -/

theorem keeps_deregister {token' : String} {σ : TokenPhase} (hσ : token' = token → σ = .idle)
    (h : Hub) : (tokenDiscipline token user).Keeps (Routine.transact (deregister token'))
      (fun x _ σ' =>
        match x with
        | none => σ' = σ
        | some s => s.token = token' ∧
            if token' = token then s.id = user ∧ σ' = .deleting else σ' = σ) h σ := by
  refine Discipline.keeps_transact fun h₁ _ hs => ?_
  rcases deregister_cases hs.1 token' with ⟨heq, -⟩ | ⟨s, d, heq, htoken, hd⟩
  · rw [heq]
    exact ⟨σ, Discipline.turn_refl _ h₁ σ, rfl⟩
  · rw [heq]
    have hsound : d.Coherent ∧ ∀ s', d.ofToken token = some s' → s'.id = user := by
      refine ⟨hs.1.removed hd, fun s' hs' => hs.2 s' ?_⟩
      rw [hd.ofToken] at hs'
      split at hs'
      · cases hs'
      · exact hs'
    have hpresent := hd.present
    by_cases ht : token' = token
    · subst ht
      rw [htoken] at hpresent
      refine ⟨.deleting, ⟨fun _ => hsound, ?_⟩, htoken, ?_⟩
      · rw [hσ rfl]
        refine .remove ?_ ((hd.ofToken token').trans (if_pos htoken))
        rw [hpresent]
        rfl
      · rw [if_pos rfl]
        exact ⟨hs.2 s hpresent, rfl⟩
    · refine ⟨σ, ⟨fun _ => hsound, .same ?_⟩, htoken, if_neg ht ▸ rfl⟩
      show (d.ofToken token).isSome = _
      rw [hd.ofToken, if_neg (htoken ▸ ht)]

theorem keeps_noSession {s : Session} {σ σ' : TokenPhase} (hσ : s.token = token → σ = .idle)
    (hq : if s.token = token then s.id = user ∧ σ' = .deleting else σ' = σ) (h : Hub) :
    (tokenDiscipline token user).Keeps (Routine.update (Update.noSession s.token s.id))
      (fun _ _ τ => τ = σ) h σ' := by
  by_cases ht : s.token = token
  · rw [if_pos ht] at hq
    obtain ⟨rfl, rfl⟩ := hq
    rw [hσ ht, ht]
    exact Discipline.keeps_update fun _ _ _ => ⟨.idle, .delete, rfl⟩
  · rw [if_neg ht] at hq
    cases hq
    refine keeps_update (fun r => ?_) σ h
    rw [Update.leaves_noSession, if_neg]
    rintro (hk | hk)
    · cases hk
      exact ht rfl
    · cases hk

/-- A teardown begins and ends without anything to do.  It may come in between while another token
of the task is in use. -/
theorem keeps_disconnect {token' : String} {σ : TokenPhase} (hσ : token' = token → σ = .idle)
    (h : Hub) : (tokenDiscipline token user).Keeps (disconnect token') (fun _ _ σ' => σ' = σ)
      h σ := by
  rw [disconnect_eq]
  apply Discipline.keeps_bind (keeps_deregister hσ h)
  intro found h σ' hq
  cases found with
  | none => exact hq
  | some s =>
    obtain ⟨rfl, hq⟩ := hq
    refine Discipline.keeps_bind (keeps_transact (P := fun _ => True) (fun _ => rfl)
      (fun _ => trivial) σ' h) ?_
    intro _ h _ hboth
    obtain ⟨-, rfl⟩ := hboth
    apply Discipline.keeps_bind (keeps_roomsOnly (RoomNews.roomsOnly_leaveCurrent s.id) _ h)
    intro _ h _ heq
    subst heq
    apply Discipline.keeps_bind (keeps_noSession hσ hq h)
    intro _ h _ heq
    subst heq
    exact keeps_silent s.silent_farewell _ h

/-- the phase of a login before its session is entered -/
def before (token token' : String) : TokenPhase := if token' = token then .entering else .idle

/-- the phase of a login once its session has been entered -/
def behind (token token' : String) : TokenPhase := if token' = token then .publishing else .idle

theorem keeps_register {s : Session} (hu : s.token = token → s.id = user) (h : Hub) :
    (tokenDiscipline token user).Keeps (Routine.transact (register s)) (fun x _ σ =>
      match x with
      | .error _ => σ = .idle
      | .ok previous => σ = behind token s.token ∧
          ∀ old, previous = some old → old.token ≠ s.token) h (before token s.token) := by
  refine Discipline.keeps_transact fun h₁ _ hs => ?_
  rcases register_cases s h₁ with ⟨heq, -⟩ | ⟨d, heq, hd⟩
  · rw [heq]
    refine ⟨.idle, ⟨id, ?_⟩, rfl⟩
    by_cases ht : s.token = token
    · rw [before, if_pos ht]
      exact .refuse
    · rw [before, if_neg ht]
      exact .same rfl
  · rw [heq]
    have hprevious : ∀ old, h₁.directory.ofUser s.id = some old → old.token ≠ s.token :=
      fun old ho => hs.1.ofToken_ne hd.fresh ho
    have hothers : ∀ s', d.ofToken token = some s' → s'.id = user := by
      intro s' hs'
      rw [hd.ofToken] at hs'
      split at hs'
      · rename_i ht
        cases hs'
        exact hu ht
      · exact hs.2 s' hs'
    refine ⟨behind token s.token, ⟨fun _ => ⟨hs.1.entered hd, hothers⟩, ?_⟩, rfl, hprevious⟩
    · by_cases ht : s.token = token
      · rw [before, behind, if_pos ht, if_pos ht]
        refine .enter (ht ▸ hd.fresh) ?_
        show (d.ofToken token).isSome = true
        rw [hd.ofToken, if_pos ht]
        rfl
      · rw [before, behind, if_neg ht, if_neg ht]
        refine .same ?_
        show (d.ofToken token).isSome = _
        rw [hd.ofToken, if_neg ht]

theorem keeps_session {s : Session} (hu : s.token = token → s.id = user) (h : Hub) :
    (tokenDiscipline token user).Keeps (Routine.update (Update.session s.token s.id))
      (fun _ _ σ => σ = .idle) h (behind token s.token) := by
  by_cases ht : s.token = token
  · rw [behind, if_pos ht, hu ht, ht]
    exact Discipline.keeps_update fun _ _ _ => ⟨.idle, .publish, rfl⟩
  · rw [behind, if_neg ht]
    refine keeps_update (fun r => ?_) .idle h
    rw [Update.leaves_session, if_neg]
    intro hk
    cases hk
    exact ht rfl

theorem keeps_greet {s : Session} (hu : s.token = token → s.id = user) (h : Hub) :
    (tokenDiscipline token user).Keeps s.greet (fun _ _ σ => σ = .idle) h
      (behind token s.token) := by
  apply Discipline.keeps_bind (keeps_session hu h)
  intro _ h _ heq
  subst heq
  apply Discipline.keeps_bind (keeps_silent (Routine.silent_read _) .idle h)
  intro status h _ heq
  subst heq
  refine Discipline.keeps_bind (keeps_update (fun r => ?_) .idle h) ?_
  · exact (Update.leaves_status _ r _ _).trans (if_neg (by simp))
  · intro _ h _ heq
    subst heq
    exact keeps_silent s.silent_welcome .idle h

theorem keeps_login {profile : Profile} {token' : String} (line : Nat)
    (hu : token' = token → profile.id = user) (h : Hub) :
    (tokenDiscipline token user).Keeps (login profile token' line) (fun _ _ σ => σ = .idle) h
      (before token token') := by
  rw [login_eq]
  refine Discipline.keeps_bind (keeps_transact (P := fun s => s.token = token' ∧
    s.profile = profile) (fun _ => rfl) (fun _ => ⟨rfl, rfl⟩) _ h) ?_
  intro s h _ hboth
  obtain ⟨⟨rfl, rfl⟩, rfl⟩ := hboth
  apply Discipline.keeps_bind (keeps_register hu h)
  intro entered h σ hq
  rcases entered with e | _ | old
  · exact hq
  · obtain ⟨rfl, -⟩ := hq
    exact keeps_greet hu h
  · obtain ⟨rfl, hold⟩ := hq
    apply Discipline.keeps_bind (keeps_silent (old.silent_send _) _ h)
    intro _ h _ heq
    subst heq
    refine Discipline.keeps_bind (keeps_disconnect (fun ht => ?_) h) ?_
    · rw [behind, if_neg fun hs => hold old rfl (ht.trans hs.symm)]
    · intro _ h _ heq
      subst heq
      exact keeps_greet hu h

end TokenPhase
end RhythmLobby
