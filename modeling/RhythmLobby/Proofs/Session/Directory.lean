import RhythmLobby.Proofs.Hub.Footprint
import RhythmLobby.Task.Presence

/-!
# What the directory finds

* `Directory.Coherent`                        who is found by user is found by token;
* `Directory.add_cases`, `Directory.remove_cases`   what is entered and taken out;
* `register_cases`, `deregister_cases`        what the two steps find and leave;
* `Coherent.entered`, `Coherent.removed`      they keep the directory coherent;
* `login_eq`, `disconnect_eq`                 the parts of a login and of a teardown.
-/

namespace RhythmLobby

namespace Directory

/-- sessions stand under their own tokens and users, and who is found by user is found by token -/
structure Coherent (d : Directory) : Prop where
  token : ∀ {t s}, d.ofToken t = some s → s.token = t
  user : ∀ {u s}, d.ofUser u = some s → s.id = u
  known : ∀ {u s}, d.ofUser u = some s → d.ofToken s.token = some s

/-- a session has been entered -/
structure Entered (d : Directory) (s : Session) (d' : Directory) : Prop where
  fresh : d.ofToken s.token = none
  ofToken : ∀ t, d'.ofToken t = if s.token = t then some s else d.ofToken t
  ofUser : ∀ u, d'.ofUser u = if s.id = u then some s else d.ofUser u

/-- a session has been taken out; a newer session of its user stays -/
structure Removed (d : Directory) (s : Session) (d' : Directory) : Prop where
  present : d.ofToken s.token = some s
  ofToken : ∀ t, d'.ofToken t = if s.token = t then none else d.ofToken t
  ofUser : ∀ u, d'.ofUser u = if s.id = u ∧ d.ofUser u = some s then none else d.ofUser u

theorem coherent_empty : empty.Coherent where
  token h := by cases h
  user h := by cases h
  known h := by cases h

theorem Coherent.entered {d d' : Directory} {s : Session} (hd : d.Coherent)
    (h : d.Entered s d') : d'.Coherent where
  token {t s'} hs := by
    rw [h.ofToken] at hs
    by_cases ht : s.token = t
    · rw [if_pos ht] at hs
      cases hs
      exact ht
    · rw [if_neg ht] at hs
      exact hd.token hs
  user {u s'} hs := by
    rw [h.ofUser] at hs
    by_cases hu : s.id = u
    · rw [if_pos hu] at hs
      cases hs
      exact hu
    · rw [if_neg hu] at hs
      exact hd.user hs
  known {u s'} hs := by
    rw [h.ofUser] at hs
    rw [h.ofToken]
    by_cases hu : s.id = u
    · rw [if_pos hu] at hs
      cases hs
      exact if_pos rfl
    · rw [if_neg hu] at hs
      have hknown := hd.known hs
      by_cases ht : s.token = s'.token
      · have hfresh := h.fresh
        rw [ht, hknown] at hfresh
        cases hfresh
      · rwa [if_neg ht]

theorem Coherent.removed {d d' : Directory} {s : Session} (hd : d.Coherent)
    (h : d.Removed s d') : d'.Coherent where
  token {t s'} hs := by
    rw [h.ofToken] at hs
    by_cases ht : s.token = t
    · rw [if_pos ht] at hs
      cases hs
    · rw [if_neg ht] at hs
      exact hd.token hs
  user {u s'} hs := by
    rw [h.ofUser] at hs
    by_cases hu : s.id = u ∧ d.ofUser u = some s
    · rw [if_pos hu] at hs
      cases hs
    · rw [if_neg hu] at hs
      exact hd.user hs
  known {u s'} hs := by
    rw [h.ofUser] at hs
    by_cases hu : s.id = u ∧ d.ofUser u = some s
    · rw [if_pos hu] at hs
      cases hs
    · rw [if_neg hu] at hs
      have hknown := hd.known hs
      rw [h.ofToken]
      by_cases ht : s.token = s'.token
      · -- two sessions with one token are one session, which has been taken out
        have hpresent := h.present
        rw [ht, hknown] at hpresent
        cases hpresent
        exact absurd ⟨hd.user hs, hs⟩ hu
      · rwa [if_neg ht]

theorem add_cases (d : Directory) (s : Session) :
    (d.add s = .error .duplicateToken ∧ d.ofToken s.token ≠ none) ∨
    ∃ d', d.add s = .ok (d.ofUser s.id, d') ∧ d.Entered s d' := by
  unfold add
  cases ht : d.byToken.get? s.token with
  | some old =>
    have hc : d.byToken.contains s.token = true := by
      rw [Table.contains, ht]
      rfl
    rw [if_pos hc]
    refine .inl ⟨rfl, fun hn => ?_⟩
    rw [ofToken, ht] at hn
    cases hn
  | none =>
    have hc : ¬ d.byToken.contains s.token = true := by
      rw [Table.contains, ht]
      simp
    rw [if_neg hc]
    exact .inr ⟨_, rfl, ht, fun t => Table.get?_insert _ _ _ _, fun u => Table.get?_insert _ _ _ _⟩

theorem remove_cases {d : Directory} (hd : d.Coherent) (token : String) :
    (d.remove token = none ∧ d.ofToken token = none) ∨
    ∃ s d', d.remove token = some (s, d') ∧ s.token = token ∧ d.Removed s d' := by
  unfold remove
  cases ht : d.byToken.get? token with
  | none => exact .inl ⟨rfl, ht⟩
  | some s =>
    have htoken : s.token = token := hd.token ht
    refine .inr ⟨s, _, rfl, htoken, htoken ▸ ht, fun t => ?_, fun u => ?_⟩
    · rw [htoken]
      exact Table.get?_erase _ _ _
    · show Table.get? (if d.byUser.get? s.id = some s then d.byUser.erase s.id else d.byUser) u = _
      by_cases hu : s.id = u
      · subst hu
        by_cases hs : d.byUser.get? s.id = some s
        · rw [if_pos hs, Table.get?_erase, if_pos rfl, if_pos ⟨rfl, hs⟩]
        · rw [if_neg hs, if_neg fun h => hs h.2]
          rfl
      · rw [if_neg (c := s.id = u ∧ _) fun h => hu h.1]
        split
        · rw [Table.get?_erase, if_neg hu]
          rfl
        · rfl

end Directory

/-! ## The two steps -/

theorem register_cases (s : Session) (h : Hub) :
    (register s h = (.error .duplicateToken, h) ∧ h.directory.ofToken s.token ≠ none) ∨
    ∃ d, register s h = (.ok (h.directory.ofUser s.id), { h with directory := d }) ∧
      h.directory.Entered s d := by
  unfold register
  rcases h.directory.add_cases s with ⟨heq, htaken⟩ | ⟨d, heq, hd⟩
  · rw [heq]
    exact .inl ⟨rfl, htaken⟩
  · rw [heq]
    exact .inr ⟨d, rfl, hd⟩

theorem deregister_cases {h : Hub} (hd : h.directory.Coherent) (token : String) :
    (deregister token h = (none, h) ∧ h.directory.ofToken token = none) ∨
    ∃ s d, deregister token h = (some s, { h with directory := d }) ∧ s.token = token ∧
      h.directory.Removed s d := by
  unfold deregister
  rcases Directory.remove_cases hd token with ⟨heq, hnone⟩ | ⟨s, d, heq, htoken, hr⟩
  · rw [heq]
    exact .inl ⟨rfl, hnone⟩
  · rw [heq]
    exact .inr ⟨s, d, rfl, htoken, hr⟩

/-- registered sessions carry the tokens under which they stand -/
theorem Directory.Coherent.ofToken_ne {d : Directory} (hd : d.Coherent) {token : String}
    {old : Session} {user : Int32} (hn : d.ofToken token = none)
    (ho : d.ofUser user = some old) : old.token ≠ token := by
  intro ht
  have := hd.known ho
  rw [ht, hn] at this
  cases this

/-! ## What is only told to others -/

open Routine

theorem Session.silent_send (s : Session) (p : ServerPacket) : (s.send p).Silent := silent_emit rfl

theorem silent_announce (p : ServerPacket) : (announce p).Silent :=
  within_bind (silent_read _) fun _ => silent_emit rfl

theorem silent_gaugeUsers : gaugeUsers.Silent :=
  within_bind (silent_read _) fun _ => silent_emit rfl

/-! ## The parts of a login and of a teardown -/

namespace Session

/-- what is told at the end of a login -/
def welcome (s : Session) : Routine (Except RegistryError Session) := do
  let _ ← s.send (.welcome s.toPublic s.token)
  let online ← Routine.read (·.directory.all)
  let _ ← s.send (.usersOnline (online.map Session.toPublic))
  let _ ← Routine.emit (.fanOut (.userConnected s.toPublic) (online.filter (· ≠ s)))
  Routine.emit (.note .sessionCreated)
  gaugeUsers
  return .ok s

/-- the end of a login: the records are written, and everybody is told -/
def greet (s : Session) : Routine (Except RegistryError Session) := do
  Routine.update (.session s.token s.id)
  let status ← Routine.read fun h => (h.stateOf s).status
  Routine.update (.status s.id status)
  s.welcome

/-- what is told at the end of a teardown -/
def farewell (s : Session) : Routine Unit := do
  gaugeUsers
  if (← Routine.read (·.directory.ofUser s.id)).isNone then
    let _ ← announce (.userDisconnected s.id)
  Routine.emit (.hangUp s.line)

/-- the rest of a teardown, once the session has been taken out -/
def wind (s : Session) : Routine Unit := do
  Routine.change fun h => h.modifyState s fun state => { state with retired := true }
  let _ ← RoomNews.leaveCurrent s.id
  Routine.update (.noSession s.token s.id)
  s.farewell

theorem silent_welcome (s : Session) : s.welcome.Silent := by
  refine within_bind (s.silent_send _) fun _ => ?_
  refine within_bind (silent_read _) fun _ => ?_
  refine within_bind (s.silent_send _) fun _ => ?_
  refine within_bind (silent_emit rfl) fun _ => ?_
  refine within_bind (silent_emit rfl) fun _ => ?_
  exact within_bind silent_gaugeUsers fun _ => within_done _

theorem silent_farewell (s : Session) : s.farewell.Silent := by
  refine within_bind silent_gaugeUsers fun _ => ?_
  refine within_bind (silent_read _) fun online => ?_
  split
  · exact within_bind (silent_announce _) fun _ => silent_emit rfl
  · exact silent_emit rfl

end Session

theorem disconnect_eq (token : String) : disconnect token =
    (transact (deregister token)).bind fun
      | none => .done ()
      | some s => s.wind := rfl

theorem login_eq (profile : Profile) (token : String) (line : Nat) : login profile token line =
    (transact fun h => h.addSession profile token line).bind fun s =>
      (transact (register s)).bind fun
        | .error e => .done (.error e)
        | .ok none => s.greet
        | .ok (some old) => (old.send (.error "logged in from another location")).bind fun _ =>
          (disconnect old.token).bind fun _ => s.greet := by
  unfold login
  congr
  funext s
  congr
  funext found
  rcases found with e | (_ | old) <;> rfl

end RhythmLobby
