import RhythmLobby.Proofs.Session.Directory

/-!
# Sessions in order

* `Hub.Orderly`                    whoever is found has a session in use, which is its own;
* `Hub.Rightful`                   what stays true of a session from its login on;
* `Hub.Dismissed`, `Hub.Admitted`  a session is taken out, or comes in instead of an old one;
* `Orderly.dismissed`, `Orderly.sameUse`, `Orderly.admitted`   the sessions stay in order;
* `Hub.currentStatus`              the status that the record of a user should show;
* `admitted_of_first`, `admitted_of_dismissed`   the two ways in which a session comes in.
-/

namespace RhythmLobby

namespace Hub

/-! ## States of sessions -/

theorem stateOf_congr {h : Hub} {s s' : Session} (hk : s.key = s'.key) :
    h.stateOf s = h.stateOf s' := by
  rw [stateOf, stateOf, hk]

theorem stateOf_modifyState {h : Hub} {s s' : Session} (f : SessionState → SessionState)
    (hs : s.key < h.sessions.length) :
    (h.modifyState s f).stateOf s' = if s'.key = s.key then f (h.stateOf s) else h.stateOf s' := by
  by_cases hk : s'.key = s.key
  · simp [stateOf, modifyState, setState, hk, hs]
  · simp [stateOf, modifyState, setState, hk, List.getElem?_set_ne (Ne.symm hk)]

theorem length_modifyState (h : Hub) (s : Session) (f : SessionState → SessionState) :
    (h.modifyState s f).sessions.length = h.sessions.length := List.length_set

theorem stateOf_of_sessions {h h' : Hub} (hs : h'.sessions = h.sessions) {s : Session}
    (hk : s.key < h.sessions.length) : h'.stateOf s = h.stateOf s := by
  rw [stateOf, stateOf, hs, List.getElem?_eq_getElem hk]
  rfl

/-! ## Order -/

/-- Whoever is found by token is found by user, has a session in use, and shares it with nobody. -/
structure Orderly (h : Hub) : Prop where
  coherent : h.directory.Coherent
  current : ∀ {t s}, h.directory.ofToken t = some s → h.directory.ofUser s.id = some s
  made : ∀ {u s}, h.directory.ofUser u = some s → s.key < h.sessions.length
  used : ∀ {u s}, h.directory.ofUser u = some s → (h.stateOf s).retired = false
  alone : ∀ {u v s s'}, h.directory.ofUser u = some s → h.directory.ofUser v = some s' →
    s.key = s'.key → s = s'

/-- From its login on a session stays in use only as long as it is the one that is found for its
user, and nobody else ever gets its state. -/
structure Rightful (h : Hub) (s : Session) : Prop where
  made : s.key < h.sessions.length
  online : (h.stateOf s).retired = false → h.directory.ofUser s.id = some s
  alone : ∀ {u s'}, h.directory.ofUser u = some s' → s'.key = s.key → s' = s

theorem orderly_of_empty {h : Hub} (hd : h.directory = .empty) : h.Orderly := by
  have ht : ∀ t s, h.directory.ofToken t ≠ some s := by
    rw [hd]
    exact fun _ _ => nofun
  have hu : ∀ u s, h.directory.ofUser u ≠ some s := by
    rw [hd]
    exact fun _ _ => nofun
  exact ⟨hd ▸ Directory.coherent_empty, fun h => absurd h (ht _ _), fun h => absurd h (hu _ _),
    fun h => absurd h (hu _ _), fun h => absurd h (hu _ _)⟩

theorem Orderly.rightful {h : Hub} (hh : h.Orderly) {u : Int32} {s : Session}
    (hs : h.directory.ofUser u = some s) : h.Rightful s where
  made := hh.made hs
  online _ := by
    rw [hh.coherent.user hs]
    exact hs
  alone hs' hk := hh.alone hs' hs hk

/-! ## A session is dismissed -/

/-- a session has been taken out and is used no more -/
structure Dismissed (h : Hub) (s : Session) (h' : Hub) : Prop where
  directory : h.directory.Removed s h'.directory
  length : h'.sessions.length = h.sessions.length
  states : ∀ s', s'.key < h.sessions.length → h'.stateOf s' =
    if s'.key = s.key then { h.stateOf s with retired := true } else h.stateOf s'

/-! ## A session is admitted -/

/-- a new session has taken the place of its user's session so far -/
structure Admitted (h : Hub) (s : Session) (h' : Hub) : Prop where
  key : s.key = h.sessions.length
  length : h'.sessions.length = h.sessions.length + 1
  fresh : h.directory.ofToken s.token = none
  ofUser : ∀ u, h'.directory.ofUser u = if s.id = u then some s else h.directory.ofUser u
  ofToken : ∀ t, h'.directory.ofToken t = if s.token = t then some s else
    if ∃ old, h.directory.ofUser s.id = some old ∧ old.token = t then none
    else h.directory.ofToken t
  own : h'.stateOf s = SessionState.fresh h.clock
  states : ∀ s', s'.key < h.sessions.length → h'.stateOf s' =
    if ∃ old, h.directory.ofUser s.id = some old ∧ old.key = s'.key then
      { h.stateOf s' with retired := true }
    else h.stateOf s'

/-! ## Order is kept -/

section Dismissed

variable {h h' : Hub} {s s₀ : Session}

theorem Orderly.removed (hh : h.Orderly) (hd : h.Dismissed s h') :
    h.directory.ofUser s.id = some s := hh.current hd.directory.present

theorem Dismissed.ofUser (hd : h.Dismissed s h') (hh : h.Orderly) (u : Int32) :
    h'.directory.ofUser u = if s.id = u then none else h.directory.ofUser u := by
  rw [hd.directory.ofUser]
  by_cases hu : s.id = u
  · subst hu
    rw [if_pos ⟨rfl, hh.removed hd⟩, if_pos rfl]
  · rw [if_neg fun h => hu h.1, if_neg hu]

theorem Dismissed.of_ofUser (hd : h.Dismissed s h') (hh : h.Orderly) {u : Int32}
    (hs₀ : h'.directory.ofUser u = some s₀) : h.directory.ofUser u = some s₀ ∧ s.id ≠ u := by
  rw [hd.ofUser hh] at hs₀
  split at hs₀
  · cases hs₀
  · exact ⟨hs₀, ‹_›⟩

theorem Orderly.dismissed (hh : h.Orderly) (hd : h.Dismissed s h') : h'.Orderly where
  coherent := hh.coherent.removed hd.directory
  current {t s₀} hs₀ := by
    rw [hd.directory.ofToken] at hs₀
    split at hs₀
    · cases hs₀
    · rename_i ht
      have hcurrent := hh.current hs₀
      rw [hd.ofUser hh, if_neg, hcurrent]
      intro hid
      have := hh.removed hd
      rw [hid, hcurrent] at this
      cases this
      exact ht (hh.coherent.token hs₀)
  made hs₀ := by
    rw [hd.length]
    exact hh.made (hd.of_ofUser hh hs₀).1
  used {u s₀} hs₀ := by
    obtain ⟨hold, hu⟩ := hd.of_ofUser hh hs₀
    rw [hd.states s₀ (hh.made hold), if_neg]
    · exact hh.used hold
    · intro hk
      cases hh.alone hold (hh.removed hd) hk
      exact hu (hh.coherent.user hold)
  alone hs₀ hs₁ := hh.alone (hd.of_ofUser hh hs₀).1 (hd.of_ofUser hh hs₁).1

theorem Rightful.dismissed (hr : h.Rightful s₀) (hh : h.Orderly) (hd : h.Dismissed s h') :
    h'.Rightful s₀ where
  made := by
    rw [hd.length]
    exact hr.made
  online hused := by
    rw [hd.states s₀ hr.made] at hused
    split at hused
    · cases hused
    · rename_i hk
      have honline := hr.online hused
      rw [hd.ofUser hh, if_neg, honline]
      intro hid
      have := hh.removed hd
      rw [hid, honline] at this
      cases this
      exact hk rfl
  alone hs' := hr.alone (hd.of_ofUser hh hs').1

end Dismissed

section SameUse

variable {h h' : Hub} {s s₀ : Session}

/-- the same sessions are found, and those that were used are still used -/
structure SameUse (h h' : Hub) : Prop where
  directory : h'.directory = h.directory
  length : h.sessions.length ≤ h'.sessions.length
  retired : ∀ s, s.key < h.sessions.length → (h'.stateOf s).retired = (h.stateOf s).retired

theorem Orderly.sameUse (hh : h.Orderly) (hu : h.SameUse h') : h'.Orderly where
  coherent := hu.directory ▸ hh.coherent
  current hs := by
    rw [hu.directory] at hs ⊢
    exact hh.current hs
  made hs := by
    rw [hu.directory] at hs
    exact Nat.lt_of_lt_of_le (hh.made hs) hu.length
  used hs := by
    rw [hu.directory] at hs
    rw [hu.retired _ (hh.made hs)]
    exact hh.used hs
  alone hs hs' := by
    rw [hu.directory] at hs hs'
    exact hh.alone hs hs'

theorem Rightful.sameUse (hr : h.Rightful s) (hu : h.SameUse h') : h'.Rightful s where
  made := Nat.lt_of_lt_of_le hr.made hu.length
  online hused := by
    rw [hu.retired s hr.made] at hused
    rw [hu.directory]
    exact hr.online hused
  alone hs' := by
    rw [hu.directory] at hs'
    exact hr.alone hs'

theorem sameUse_of_sessions (hd : h'.directory = h.directory) (hs : h'.sessions = h.sessions) :
    h.SameUse h' :=
  ⟨hd, Nat.le_of_eq (by rw [hs]), fun s hk => by rw [stateOf_of_sessions hs hk]⟩

/-- changes of a session in use, or of one that nobody finds any more -/
theorem sameUse_modifyState {f : SessionState → SessionState}
    (hf : ∀ state, (f state).retired = state.retired) (hs : s.key < h.sessions.length) :
    h.SameUse (h.modifyState s f) := by
  refine ⟨rfl, Nat.le_of_eq (length_modifyState h s f).symm, fun s₀ _ => ?_⟩
  rw [stateOf_modifyState f hs]
  split
  · rename_i hk
    rw [hf, stateOf_congr hk]
  · rfl

end SameUse

section Admitted

variable {h h' : Hub} {s s₀ : Session}

theorem Admitted.of_ofUser (ha : h.Admitted s h') {u : Int32}
    (hs₀ : h'.directory.ofUser u = some s₀) :
    (s₀ = s ∧ s.id = u) ∨ (h.directory.ofUser u = some s₀ ∧ s.id ≠ u) := by
  rw [ha.ofUser] at hs₀
  split at hs₀
  · cases hs₀
    exact .inl ⟨rfl, ‹_›⟩
  · exact .inr ⟨hs₀, ‹_›⟩

/-- the displaced session belongs to the user who has come -/
theorem Orderly.not_displaced (hh : h.Orderly) {u : Int32} (hs₀ : h.directory.ofUser u = some s₀)
    (hu : s.id ≠ u) : h.directory.ofUser s.id ≠ some s₀ :=
  fun h₀ => hu ((hh.coherent.user h₀).symm.trans (hh.coherent.user hs₀))

theorem Admitted.state_of_ne (ha : h.Admitted s h') (hh : h.Orderly) {u : Int32}
    (hs₀ : h.directory.ofUser u = some s₀) (hu : s.id ≠ u) : h'.stateOf s₀ = h.stateOf s₀ := by
  rw [ha.states s₀ (hh.made hs₀), if_neg]
  intro hexists
  obtain ⟨old, ho, hk⟩ := hexists
  cases hh.alone ho hs₀ hk
  exact hh.not_displaced hs₀ hu ho

theorem Orderly.admitted (hh : h.Orderly) (ha : h.Admitted s h') : h'.Orderly where
  coherent := by
    refine ⟨fun {t s₀} hs₀ => ?_, fun {u s₀} hs₀ => ?_, fun {u s₀} hs₀ => ?_⟩
    · rw [ha.ofToken] at hs₀
      split at hs₀
      · cases hs₀
        assumption
      · split at hs₀
        · cases hs₀
        · exact hh.coherent.token hs₀
    · rcases ha.of_ofUser hs₀ with ⟨rfl, hu⟩ | ⟨hold, -⟩
      · exact hu
      · exact hh.coherent.user hold
    · rw [ha.ofToken]
      rcases ha.of_ofUser hs₀ with ⟨rfl, -⟩ | ⟨hold, hu⟩
      · exact if_pos rfl
      · have hknown := hh.coherent.known hold
        rw [if_neg fun ht => ?_, if_neg ?_, hknown]
        · intro hexists
          obtain ⟨old, ho, ht⟩ := hexists
          have := hh.coherent.known ho
          rw [ht, hknown] at this
          cases this
          exact hh.not_displaced hold hu ho
        · have hfresh := ha.fresh
          rw [ht, hknown] at hfresh
          cases hfresh
  current {t s₀} hs₀ := by
    rw [ha.ofToken] at hs₀
    split at hs₀
    · cases hs₀
      exact (ha.ofUser _).trans (if_pos rfl)
    · split at hs₀
      · cases hs₀
      · rename_i hdisplaced
        have hcurrent := hh.current hs₀
        rw [ha.ofUser, if_neg, hcurrent]
        intro hid
        rw [← hid] at hcurrent
        exact hdisplaced ⟨s₀, hcurrent, hh.coherent.token hs₀⟩
  made {u s₀} hs₀ := by
    rw [ha.length]
    rcases ha.of_ofUser hs₀ with ⟨rfl, -⟩ | ⟨hold, -⟩
    · rw [ha.key]
      exact Nat.lt_succ_self _
    · exact Nat.lt_succ_of_lt (hh.made hold)
  used {u s₀} hs₀ := by
    rcases ha.of_ofUser hs₀ with ⟨rfl, -⟩ | ⟨hold, hu⟩
    · rw [ha.own]
      rfl
    · rw [ha.state_of_ne hh hold hu]
      exact hh.used hold
  alone {u v s₀ s₁} hs₀ hs₁ hk := by
    have hkey := ha.key
    rcases ha.of_ofUser hs₀ with ⟨rfl, -⟩ | ⟨hold₀, -⟩ <;>
      rcases ha.of_ofUser hs₁ with ⟨rfl, -⟩ | ⟨hold₁, -⟩
    · rfl
    · have := hh.made hold₁
      omega
    · have := hh.made hold₀
      omega
    · exact hh.alone hold₀ hold₁ hk

theorem Rightful.admitted (hr : h.Rightful s₀) (ha : h.Admitted s h') : h'.Rightful s₀ where
  made := by
    rw [ha.length]
    exact Nat.lt_succ_of_lt hr.made
  online hused := by
    rw [ha.states s₀ hr.made] at hused
    split at hused
    · cases hused
    · rename_i hdisplaced
      have honline := hr.online hused
      rw [ha.ofUser, if_neg, honline]
      intro hid
      rw [← hid] at honline
      exact hdisplaced ⟨s₀, honline, rfl⟩
  alone {u s₁} hs₁ hk := by
    rcases ha.of_ofUser hs₁ with ⟨rfl, -⟩ | ⟨hold, -⟩
    · have := hr.made
      rw [← hk, ha.key] at this
      exact absurd this (Nat.lt_irrefl _)
    · exact hr.alone hold hk

theorem Admitted.rightful (ha : h.Admitted s h') (hh : h.Orderly) : h'.Rightful s :=
  (hh.admitted ha).rightful ((ha.ofUser s.id).trans (if_pos rfl))

end Admitted

/-! ## A new session among the old ones -/

section Entering

variable {h : Hub} (profile : Profile) (token : String) (line : Nat)

theorem length_addSession :
    (h.addSession profile token line).2.sessions.length = h.sessions.length + 1 :=
  List.length_append

theorem stateOf_addSession {s : Session} (hs : s.key < h.sessions.length) :
    (h.addSession profile token line).2.stateOf s = h.stateOf s := by
  show ((h.sessions ++ [SessionState.fresh h.clock])[s.key]?).getD _ = _
  rw [List.getElem?_append_left hs]
  rfl

theorem stateOf_addSession_new {s : Session} (hs : s.key = h.sessions.length) :
    (h.addSession profile token line).2.stateOf s = SessionState.fresh h.clock := by
  show ((h.sessions ++ [SessionState.fresh h.clock])[s.key]?).getD _ = _
  rw [hs, List.getElem?_concat_length]
  rfl

/-- a refused session only leaves a state behind that nobody uses -/
theorem sameUse_addSession : h.SameUse (h.addSession profile token line).2 :=
  ⟨rfl, by rw [length_addSession]; exact Nat.le_succ _,
    fun _ hs => by rw [stateOf_addSession profile token line hs]⟩

/-- the hub with one more session, which stands in the directory -/
def entering (h : Hub) (profile : Profile) (token : String) (line : Nat) (d : Directory) : Hub :=
  { (h.addSession profile token line).2 with directory := d }

variable {profile token line} {s : Session} {d : Directory}

theorem length_entering :
    (h.entering profile token line d).sessions.length = h.sessions.length + 1 :=
  length_addSession profile token line

theorem stateOf_entering (hs : s.key < h.sessions.length) :
    (h.entering profile token line d).stateOf s = h.stateOf s :=
  stateOf_addSession profile token line hs

theorem admitted_of_first (hs : s = (h.addSession profile token line).1)
    (hd : h.directory.Entered s d) (hnone : h.directory.ofUser s.id = none) :
    h.Admitted s (h.entering profile token line d) where
  key := by rw [hs]; rfl
  length := length_entering
  fresh := hd.fresh
  ofUser := hd.ofUser
  ofToken t := by
    show d.ofToken t = _
    rw [hd.ofToken, hnone]
    simp
  own := stateOf_addSession_new profile token line (by rw [hs]; rfl)
  states s' hs' := by
    rw [hnone, stateOf_entering hs']
    simp

theorem admitted_of_dismissed (hh : h.Orderly) (hs : s = (h.addSession profile token line).1)
    (hd : h.directory.Entered s d) {old : Session} (ho : h.directory.ofUser s.id = some old)
    {h' : Hub} (hdismissed : (h.entering profile token line d).Dismissed old h') :
    h.Admitted s h' := by
  have hkey : s.key = h.sessions.length := by rw [hs]; rfl
  have hold : old.key < h.sessions.length := hh.made ho
  have htoken : old.token ≠ s.token := hh.coherent.ofToken_ne hd.fresh ho
  have huser : ∀ u, h'.directory.ofUser u = d.ofUser u := by
    intro u
    rw [hdismissed.directory.ofUser]
    apply if_neg
    intro hboth
    obtain ⟨hu, hd'⟩ := hboth
    have hid : old.id = s.id := hh.coherent.user ho
    rw [← hu, hid] at hd'
    have hnew : d.ofUser s.id = some s := (hd.ofUser s.id).trans (if_pos rfl)
    have : s = old := Option.some.inj (hnew.symm.trans hd')
    exact htoken (this ▸ rfl)
  refine ⟨hkey, ?_, hd.fresh, fun u => ?_, fun t => ?_, ?_, fun s' hs' => ?_⟩
  · rw [hdismissed.length, length_entering]
  · rw [huser, hd.ofUser]
  · rw [hdismissed.directory.ofToken]
    show (if old.token = t then none else d.ofToken t) = _
    rw [hd.ofToken]
    by_cases ht : old.token = t
    · rw [if_pos ht, if_neg fun hst => htoken (ht.trans hst.symm), if_pos ⟨old, ho, ht⟩]
    · rw [if_neg ht]
      by_cases hst : s.token = t
      · rw [if_pos hst, if_pos hst]
      · rw [if_neg hst, if_neg hst, if_neg]
        intro hexists
        obtain ⟨old', ho', ht'⟩ := hexists
        rw [ho] at ho'
        cases ho'
        exact ht ht'
  · rw [hdismissed.states s (by rw [length_entering, hkey]; exact Nat.lt_succ_self _),
      if_neg (by omega)]
    exact stateOf_addSession_new profile token line hkey
  · rw [hdismissed.states s' (by rw [length_entering]; omega)]
    by_cases hk : s'.key = old.key
    · rw [if_pos hk, if_pos ⟨old, ho, hk.symm⟩, stateOf_entering hold, stateOf_congr hk]
    · rw [if_neg hk, stateOf_entering hs', if_neg]
      intro hexists
      obtain ⟨old', ho', hk'⟩ := hexists
      rw [ho] at ho'
      cases ho'
      exact hk hk'.symm

end Entering

/-! ## Statuses -/

/-- the session that a user has, and its status -/
def currentStatus (h : Hub) (user : Int32) : Option (Session × ClientStatus) :=
  (h.directory.ofUser user).map fun s => (s, (h.stateOf s).status)

section Statuses

variable {h h' : Hub} {user : Int32} {s : Session}

theorem currentStatus_of_some (hs : h.directory.ofUser user = some s) :
    h.currentStatus user = some (s, (h.stateOf s).status) := by
  rw [currentStatus, hs]
  rfl

theorem currentStatus_of_none (hs : h.directory.ofUser user = none) :
    h.currentStatus user = none := by
  rw [currentStatus, hs]
  rfl

theorem currentStatus_congr (hd : h'.directory.ofUser user = h.directory.ofUser user)
    (hs : ∀ s, h.directory.ofUser user = some s → (h'.stateOf s).status = (h.stateOf s).status) :
    h'.currentStatus user = h.currentStatus user := by
  cases ho : h.directory.ofUser user with
  | none => rw [currentStatus_of_none ho, currentStatus_of_none (hd.trans ho)]
  | some s => rw [currentStatus_of_some ho, currentStatus_of_some (hd.trans ho), hs s ho]

theorem currentStatus_of_sessions (hh : h.Orderly) (hd : h'.directory = h.directory)
    (hs : h'.sessions = h.sessions) : h'.currentStatus user = h.currentStatus user :=
  currentStatus_congr (by rw [hd]) fun _ ho => by rw [stateOf_of_sessions hs (hh.made ho)]

theorem currentStatus_addSession (hh : h.Orderly) (profile : Profile) (token : String)
    (line : Nat) : (h.addSession profile token line).2.currentStatus user = h.currentStatus user :=
  currentStatus_congr rfl fun _ hs => by rw [stateOf_addSession profile token line (hh.made hs)]

theorem currentStatus_admitted (hh : h.Orderly) (ha : h.Admitted s h') :
    h'.currentStatus s.id = some (s, .initial) ∧
      ∀ user, s.id ≠ user → h'.currentStatus user = h.currentStatus user := by
  refine ⟨?_, fun user hu => currentStatus_congr ((ha.ofUser user).trans (if_neg hu)) fun s' hs' =>
    by rw [ha.state_of_ne hh hs' hu]⟩
  rw [currentStatus_of_some ((ha.ofUser s.id).trans (if_pos rfl)), ha.own]
  rfl

theorem currentStatus_dismissed (hh : h.Orderly) (hd : h.Dismissed s h') :
    h'.currentStatus s.id = none ∧
      ∀ user, s.id ≠ user → h'.currentStatus user = h.currentStatus user := by
  refine ⟨currentStatus_of_none ((hd.ofUser hh s.id).trans (if_pos rfl)), fun user hu =>
    currentStatus_congr ((hd.ofUser hh user).trans (if_neg hu)) fun s' hs' => ?_⟩
  rw [hd.states s' (hh.made hs'), if_neg]
  intro hk
  cases hh.alone hs' (hh.removed hd) hk
  exact hu (hh.coherent.user hs')

/-- the change of a session that its user does not have any more, or of a session of somebody
else -/
theorem currentStatus_modifyState {f : SessionState → SessionState} (hh : h.Orderly)
    (hr : h.Rightful s) (hs : (h.stateOf s).retired = true ∨ user ≠ s.id) :
    (h.modifyState s f).currentStatus user = h.currentStatus user := by
  refine currentStatus_congr rfl fun s' ho => ?_
  rw [stateOf_modifyState f hr.made, if_neg]
  intro hk
  cases hr.alone ho hk
  rcases hs with hretired | hu
  · rw [hh.used ho] at hretired
    cases hretired
  · exact hu (hh.coherent.user ho).symm

theorem currentStatus_modifyState_of_status {f : SessionState → SessionState}
    (hf : ∀ state, (f state).status = state.status) (hs : s.key < h.sessions.length) :
    (h.modifyState s f).currentStatus user = h.currentStatus user := by
  refine currentStatus_congr rfl fun s' _ => ?_
  rw [stateOf_modifyState f hs]
  split
  · rename_i hk
    rw [hf, stateOf_congr hk]
  · rfl

end Statuses

end Hub

end RhythmLobby
