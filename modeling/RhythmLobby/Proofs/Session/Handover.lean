import RhythmLobby.Proofs.Session.Order
import RhythmLobby.Proofs.Session.TokenBooks

/-!
# One session after another

A user may come online anew while an older session of the user is being torn down.  The teardown
deletes the record of the status by user.  For one user, the tasks go through a few phases: the
one login with a new token enters the session and writes the status later, and anybody may delete
the records of the user at any moment.

* `Handover.Phase`                   how far the new login has come;
* `Handover.discipline`              the steps from one phase to the next;
* `Handover.Sound`                   sessions made since then have the status they began with;
* `keeps_disconnect`, `keeps_login`  both tasks keep to it.
-/

namespace RhythmLobby
open Cache

namespace Handover
open Token (registered deleteCall)

/-! ## How far a login has come -/

/-- how far a task has come with the session that replaces another -/
inductive Phase where
  | idle
  /-- the session is about to be entered -/
  | entering
  /-- the session has been entered, and the status of its user is to be written -/
  | due
  deriving DecidableEq

/-- Of the sessions made since `base` of them had been made, all have the status they began with.
The session of the token is one of them and belongs to the user. -/
structure Sound (base : Nat) (token : String) (user : Int32) (h : Hub) : Prop where
  coherent : h.directory.Coherent
  made : base ≤ h.sessions.length
  fresh : ∀ k state, base ≤ k → h.sessions[k]? = some state → state.status = .initial
  owner : ∀ s, h.directory.ofToken token = some s →
    s.id = user ∧ base ≤ s.key ∧ s.key < h.sessions.length

/-- one look at memory -/
inductive Turn (token : String) : Hub → Phase → Hub → Phase → Prop
  | same {h h' : Hub} {σ : Phase} : (registered token h' = true → registered token h = true) →
      Turn token h σ h' σ
  | refuse {h : Hub} : Turn token h .entering h .idle
  | enter {h h' : Hub} : Turn token h .entering h' .due

/-- one effect -/
inductive Emit (user : Int32) : Phase → Effect → Phase → Prop
  | other {e : Effect} {σ : Phase} : Slot.Untouched (Key.status user).text e → Emit user σ e σ
  | delete {token : String} {σ : Phase} : Emit user σ (.update (.noSession token user)) σ
  | publish : Emit user .due (.update (.status user .initial)) .idle

/-- tasks with which sessions of a user come and go -/
def discipline (base : Nat) (token : String) (user : Int32) : Discipline Phase where
  sound := Sound base token user
  drift h h' := h.sessions.length ≤ h'.sessions.length
  turn h σ h' σ' := (Sound base token user h → Sound base token user h') ∧
    h.sessions.length ≤ h'.sessions.length ∧ Turn token h σ h' σ'
  emit _ σ e σ' := Emit user σ e σ'
  rest σ := σ = .idle
  turn_refl _ _ := ⟨id, Nat.le_refl _, .same id⟩
  drift_refl _ := Nat.le_refl _
  drift_trans := Nat.le_trans
  sound_turn hs ht := ht.1 hs
  drift_turn _ ht := ht.2.1

variable {base m : Nat} {token : String} {user : Int32} {α β : Type}

/-- the task changes nothing about its phase, and `m` sessions have still been made -/
def Stays (m : Nat) (σ : Phase) : α → Hub → Phase → Prop :=
  fun _ h σ' => m ≤ h.sessions.length ∧ σ' = σ

theorem keeps_aside {moves : Hub → Hub → Prop} {acts : Effect → Prop} {r : Routine α}
    (hr : r.Within moves acts) (hm : ∀ h h', moves h h' → Routine.SameSessions h h')
    (he : ∀ e, acts e → Slot.Untouched (Key.status user).text e) {h : Hub}
    (hmade : m ≤ h.sessions.length) (σ : Phase) :
    (discipline base token user).Keeps r (Stays m σ) h σ := by
  refine Discipline.keeps_mono (Discipline.keeps_within hr ?_ ?_ h) fun _ _ _ hd =>
    ⟨Nat.le_trans hmade hd.1, hd.2⟩
  · intro h h' _ hmoves
    obtain ⟨hdirectory, hsessions⟩ := hm h h' hmoves
    refine ⟨fun hs => ⟨?_, ?_, ?_, ?_⟩, Nat.le_of_eq (by rw [hsessions]), .same ?_⟩
    · rw [hdirectory]
      exact hs.coherent
    · rw [hsessions]
      exact hs.made
    · rw [hsessions]
      exact hs.fresh
    · rw [hdirectory, hsessions]
      exact hs.owner
    · rw [registered, registered, hdirectory]
      exact id
  · exact fun _ e _ hacts => .other (he e hacts)

theorem keeps_silent {r : Routine α} (hr : r.Silent) {h : Hub} (hmade : m ≤ h.sessions.length)
    (σ : Phase) : (discipline base token user).Keeps r (Stays m σ) h σ :=
  keeps_aside hr (fun h h' hm => by rw [hm]; exact ⟨rfl, rfl⟩)
    (fun e he r => e.leaves_of_call?_eq_none he _ r) hmade σ

theorem keeps_roomsOnly {r : Routine α} (hr : r.RoomsOnly) {h : Hub}
    (hmade : m ≤ h.sessions.length) (σ : Phase) :
    (discipline base token user).Keeps r (Stays m σ) h σ :=
  keeps_aside hr (fun _ _ hm => hm) (fun _ he r => he.leaves (outsideRooms_text id) r) hmade σ

theorem keeps_update {u : Update} {σ : Phase} (σ' : Phase) (hu : Emit user σ (.update u) σ')
    {h : Hub} (hmade : m ≤ h.sessions.length) :
    (discipline base token user).Keeps (Routine.update u) (Stays m σ') h σ :=
  Discipline.keeps_update fun _ hd _ => ⟨σ', hu, Nat.le_trans hmade hd, rfl⟩

/-! ## A teardown -/

theorem Sound.removed {h : Hub} {s : Session} {d : Directory} (hs : Sound base token user h)
    (hd : h.directory.Removed s d) : Sound base token user { h with directory := d } := by
  refine ⟨hs.coherent.removed hd, hs.made, hs.fresh, fun s' hs' => hs.owner s' ?_⟩
  have hs' : d.ofToken token = some s' := hs'
  rw [hd.ofToken] at hs'
  split at hs'
  · cases hs'
  · exact hs'

theorem Sound.modifyState {h : Hub} {s : Session} {f : SessionState → SessionState}
    (hs : Sound base token user h) (hf : ∀ state, (f state).status = state.status) :
    Sound base token user (h.modifyState s f) := by
  have hlength := h.length_modifyState s f
  refine ⟨hs.coherent, hlength ▸ hs.made, fun k state hk hstate => ?_, fun s' hs' => ?_⟩
  · have hstate : (h.sessions.set s.key (f (h.stateOf s)))[k]? = some state := hstate
    rw [List.getElem?_set] at hstate
    split at hstate
    · rename_i hsame
      split at hstate
      · rename_i hlt
        cases hstate
        have hold := List.getElem?_eq_getElem hlt
        rw [hf, Hub.stateOf, hold]
        exact hs.fresh _ _ (hsame ▸ hk) hold
      · cases hstate
    · exact hs.fresh k state hk hstate
  · obtain ⟨hid, hbase, hlt⟩ := hs.owner s' hs'
    exact ⟨hid, hbase, hlength ▸ hlt⟩

/-- the deletion of the records of a session is one of this user's or of another user's -/
theorem emit_noSession (s : Session) (σ : Phase) :
    Emit user σ (.update (.noSession s.token s.id)) σ := by
  by_cases hu : s.id = user
  · rw [hu]
    exact .delete
  · refine .other fun r => (Update.leaves_noSession _ r s.token s.id).trans (if_neg ?_)
    rintro (hk | hk)
    · cases hk
    · cases hk
      exact hu rfl

theorem keeps_disconnect (token' : String) {h : Hub} (hmade : m ≤ h.sessions.length) (σ : Phase) :
    (discipline base token user).Keeps (disconnect token') (Stays m σ) h σ := by
  rw [disconnect_eq]
  refine Discipline.keeps_bind (Q := Stays m σ) (Discipline.keeps_transact fun h₁ hd hs => ?_) ?_
  · have hmade := Nat.le_trans hmade hd
    rcases deregister_cases hs.coherent token' with ⟨heq, -⟩ | ⟨s, d, heq, -, hremoved⟩
    · rw [heq]
      exact ⟨σ, Discipline.turn_refl _ h₁ σ, hmade, rfl⟩
    · rw [heq]
      refine ⟨σ, ⟨fun hs => hs.removed hremoved, Nat.le_refl _, .same fun hreg => ?_⟩, hmade, rfl⟩
      replace hreg : (d.ofToken token).isSome = true := hreg
      rw [hremoved.ofToken] at hreg
      split at hreg
      · cases hreg
      · exact hreg
  · intro found h σ hboth
    obtain ⟨hmade, rfl⟩ := hboth
    cases found with
    | none => exact ⟨hmade, rfl⟩
    | some s =>
      refine Discipline.keeps_bind (Q := Stays m σ)
        (Discipline.keeps_transact fun h₁ hd hs => ?_) ?_
      · let retire := fun state : SessionState => { state with retired := true }
        have hlength := Nat.le_of_eq (h₁.length_modifyState s retire).symm
        refine ⟨σ, ⟨fun hs => ?_, hlength, .same id⟩, Nat.le_trans (Nat.le_trans hmade hd) hlength,
          rfl⟩
        exact hs.modifyState (f := retire) fun _ => rfl
      intro _ h σ hboth
      obtain ⟨hmade, rfl⟩ := hboth
      refine Discipline.keeps_bind
        (keeps_roomsOnly (RoomNews.roomsOnly_leaveCurrent s.id) hmade σ) ?_
      intro _ h σ hboth
      obtain ⟨hmade, rfl⟩ := hboth
      apply Discipline.keeps_bind (keeps_update σ (emit_noSession s σ) hmade)
      intro _ h σ hboth
      obtain ⟨hmade, rfl⟩ := hboth
      exact keeps_silent s.silent_farewell hmade σ

/-! ## A login -/

/-- the phase of a login before its session is entered -/
def before (token token' : String) : Phase := if token' = token then .entering else .idle

/-- the phase of a login once its session has been entered -/
def behind (token token' : String) : Phase := if token' = token then .due else .idle

theorem Sound.addSession {h : Hub} (hs : Sound base token user h) (profile : Profile)
    (token' : String) (line : Nat) :
    Sound base token user (h.addSession profile token' line).2 := by
  have hlength := h.length_addSession profile token' line
  refine ⟨hs.coherent, ?_, fun k state hk hstate => ?_, fun s hs' => ?_⟩
  · rw [hlength]
    exact Nat.le_succ_of_le hs.made
  · have hstate : (h.sessions ++ [SessionState.fresh h.clock])[k]? = some state := hstate
    by_cases hlt : k < h.sessions.length
    · rw [List.getElem?_append_left hlt] at hstate
      exact hs.fresh k state hk hstate
    · rw [List.getElem?_append_right (Nat.le_of_not_lt hlt)] at hstate
      cases List.mem_singleton.mp (List.mem_of_getElem? hstate)
      rfl
  · obtain ⟨hid, hbase, hlt⟩ := hs.owner s hs'
    refine ⟨hid, hbase, ?_⟩
    rw [hlength]
    exact Nat.lt_succ_of_lt hlt

/-- a session made since then has been entered -/
theorem Sound.entered {h : Hub} {s : Session} {d : Directory} (hs : Sound base token user h)
    (hd : h.directory.Entered s d) (hu : s.token = token → s.id = user) (hbase : base ≤ s.key)
    (hlt : s.key < h.sessions.length) : Sound base token user { h with directory := d } := by
  refine ⟨hs.coherent.entered hd, hs.made, hs.fresh, fun s' hs' => ?_⟩
  have hs' : d.ofToken token = some s' := hs'
  rw [hd.ofToken] at hs'
  split at hs'
  · rename_i ht
    cases hs'
    exact ⟨hu ht, hbase, hlt⟩
  · exact hs.owner s' hs'

/-- a session made since then still has the status it began with -/
theorem Sound.status {h : Hub} {s : Session} (hs : Sound base token user h) (hbase : base ≤ s.key)
    (hlt : s.key < h.sessions.length) : (h.stateOf s).status = .initial := by
  have hstate := List.getElem?_eq_getElem hlt
  rw [Hub.stateOf, hstate]
  exact hs.fresh _ _ hbase hstate

/-- the end of a login writes the status with which the session began -/
theorem keeps_greet {s : Session} (hu : s.id = user ↔ s.token = token) (hbase : base ≤ s.key)
    {h : Hub} (hmade : s.key < h.sessions.length) :
    (discipline base token user).Keeps s.greet (fun _ _ σ => σ = .idle) h
      (behind token s.token) := by
  have hother : Slot.Untouched (Key.status user).text (.update (.session s.token s.id)) :=
    fun r => (Update.leaves_session (.status user) r s.token s.id).trans (if_neg nofun)
  apply Discipline.keeps_bind (keeps_update (behind token s.token) (.other hother) hmade)
  intro _ h σ hboth
  obtain ⟨hmade, rfl⟩ := hboth
  refine Discipline.keeps_bind (Q := fun status h σ => status = .initial ∧
    Stays (s.key + 1) (behind token s.token) () h σ) (Discipline.keeps_read fun h₁ hd hs => ?_) ?_
  · have hlt := Nat.lt_of_lt_of_le hmade hd
    exact ⟨_, Discipline.turn_refl _ h₁ _, hs.status hbase hlt, hlt, rfl⟩
  intro _ h σ hboth
  obtain ⟨rfl, hmade, rfl⟩ := hboth
  refine Discipline.keeps_bind (keeps_update .idle ?_ hmade) ?_
  · by_cases ht : s.token = token
    · rw [behind, if_pos ht, hu.mpr ht]
      exact .publish
    · rw [behind, if_neg ht]
      refine .other fun r => (Update.leaves_status _ r s.id .initial).trans (if_neg fun hk => ?_)
      cases hk
      exact ht (hu.mp rfl)
  · intro _ h σ hboth
    obtain ⟨hmade, rfl⟩ := hboth
    exact Discipline.keeps_mono (keeps_silent s.silent_welcome hmade .idle) fun _ _ _ hq => hq.2

/-- a session has been entered: the task is in the phase `σ`, unless the session was refused -/
def Admission (m : Nat) (σ : Phase) (entered : Except RegistryError (Option Session)) (h : Hub)
    (σ' : Phase) : Prop :=
  match entered with
  | .error _ => σ' = .idle
  | .ok _ => Stays m σ () h σ'

theorem keeps_register {s : Session} (hu : s.id = user ↔ s.token = token) (hbase : base ≤ s.key)
    {h : Hub} (hmade : s.key < h.sessions.length) :
    (discipline base token user).Keeps (Routine.transact (register s))
      (Admission (s.key + 1) (behind token s.token)) h (before token s.token) := by
  refine Discipline.keeps_transact fun h₁ hd hs => ?_
  have hlt := Nat.lt_of_lt_of_le hmade hd
  rcases register_cases s h₁ with ⟨heq, -⟩ | ⟨d, heq, hentered⟩
  · rw [heq]
    refine ⟨.idle, ⟨id, Nat.le_refl _, ?_⟩, rfl⟩
    unfold before
    split
    · exact .refuse
    · exact .same id
  · rw [heq]
    refine ⟨behind token s.token, ⟨fun hs => hs.entered hentered hu.mpr hbase hlt,
      Nat.le_refl _, ?_⟩, hlt, rfl⟩
    by_cases ht : s.token = token
    · rw [before, behind, if_pos ht, if_pos ht]
      exact .enter
    · rw [before, behind, if_neg ht, if_neg ht]
      refine .same fun hreg => ?_
      replace hreg : (d.ofToken token).isSome = true := hreg
      rwa [hentered.ofToken, if_neg ht] at hreg

theorem keeps_login {profile : Profile} {token' : String} (line : Nat)
    (hu : profile.id = user ↔ token' = token) (h : Hub) :
    (discipline base token user).Keeps (login profile token' line) (fun _ _ σ => σ = .idle) h
      (before token token') := by
  rw [login_eq]
  refine Discipline.keeps_bind (Q := fun s h σ => (s.token = token' ∧ s.profile = profile ∧
    base ≤ s.key) ∧ Stays (s.key + 1) (before token token') () h σ)
    (Discipline.keeps_transact fun h₁ hd hs => ?_) ?_
  · have hlength := h₁.length_addSession profile token' line
    refine ⟨_, ⟨fun hs => hs.addSession profile token' line, ?_, .same id⟩,
      ⟨rfl, rfl, hs.made⟩, ?_, rfl⟩
    · rw [hlength]
      exact Nat.le_succ _
    · exact Nat.le_of_eq hlength.symm
  intro s h σ hboth
  obtain ⟨⟨rfl, rfl, hbase⟩, hmade, rfl⟩ := hboth
  apply Discipline.keeps_bind (keeps_register hu hbase hmade)
  intro entered h σ hq
  rcases entered with e | _ | old
  · exact hq
  · obtain ⟨hmade, rfl⟩ := hq
    exact keeps_greet hu hbase hmade
  · obtain ⟨hmade, rfl⟩ := hq
    apply Discipline.keeps_bind (keeps_silent (old.silent_send _) hmade _)
    intro _ h σ hboth
    obtain ⟨hmade, rfl⟩ := hboth
    apply Discipline.keeps_bind (keeps_disconnect old.token hmade _)
    intro _ h σ hboth
    obtain ⟨hmade, rfl⟩ := hboth
    exact keeps_greet hu hbase hmade

end Handover
end RhythmLobby
