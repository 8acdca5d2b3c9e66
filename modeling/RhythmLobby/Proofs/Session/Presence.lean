import RhythmLobby.Proofs.Room.Footprint
import RhythmLobby.Proofs.Session.Order

/-!
# A login and a teardown that run alone

* `disconnect_ends`, `login_ends`            the steps of both, one after the other;
* `disconnect_dismissed`, `login_admitted`   what they leave of sessions;
* `disconnect_status`, `login_status`        the records of statuses afterwards.
-/

namespace RhythmLobby
open Cache

/-! ## A teardown -/

/-- a teardown finds nobody, or takes a session out, makes its user leave the room and deletes the
records -/
theorem disconnect_ends {w w' : World} {token : String} {x : Unit}
    (hd : w.hub.directory.Coherent) (h : (disconnect token).Ends w x w') :
    (w.hub.directory.ofToken token = none ∧ w' = w) ∨
    ∃ s d y w₁, s.token = token ∧ w.hub.directory.Removed s d ∧
      (RoomNews.leaveCurrent s.id).Ends { w with
        hub := ({ w.hub with directory := d }).modifyState s fun state =>
          { state with retired := true } } y w₁ ∧
      w'.hub = w₁.hub ∧ w'.cache = (w₁.update (Update.noSession s.token s.id)).cache := by
  rw [disconnect_eq] at h
  obtain ⟨found, w₀, h₀, h⟩ := Routine.ends_bind.mp h
  obtain ⟨rfl, rfl⟩ := Routine.ends_transact.mp h₀
  rcases deregister_cases hd token with ⟨heq, hnone⟩ | ⟨s, d, heq, htoken, hremoved⟩
  · rw [heq] at h
    obtain ⟨-, rfl⟩ := Routine.ends_done.mp h
    exact .inl ⟨hnone, rfl⟩
  · rw [heq] at h
    obtain ⟨_, w₁, h₁, h⟩ := Routine.ends_bind.mp h
    rw [Routine.ends_change] at h₁
    subst h₁
    obtain ⟨y, w₂, h₂, h⟩ := Routine.ends_bind.mp h
    obtain ⟨_, w₃, h₃, h⟩ := Routine.ends_bind.mp h
    rw [Routine.ends_update] at h₃
    subst h₃
    obtain ⟨hhub, hcache⟩ := s.silent_farewell.ends h
    rw [World.update_hub] at hhub
    exact .inr ⟨s, d, y, w₂, htoken, hremoved, h₂, hhub, hcache⟩

theorem disconnect_dismissed {w w' : World} {token : String} {x : Unit} (hw : w.Reliable)
    (hd : w.hub.directory.Coherent)
    (hmade : ∀ {t s}, w.hub.directory.ofToken t = some s → s.key < w.hub.sessions.length)
    (h : (disconnect token).Ends w x w') :
    (w.hub.directory.ofToken token = none ∧ w' = w) ∨
    ∃ s, s.token = token ∧ w.hub.Dismissed s w'.hub ∧ w'.Reliable ∧
      ∀ key, OutsideRooms key → w'.record key =
        if key = (Key.session s.token).text ∨ key = (Key.status s.id).text then none
        else w.record key := by
  rcases disconnect_ends hd h with h | ⟨s, d, y, w₁, htoken, hremoved, hleave, hhub, hcache⟩
  · exact .inl h
  obtain ⟨⟨hdirectory, hsessions⟩, hreliable, hrecord⟩ :=
    (RoomNews.roomsOnly_leaveCurrent s.id).ends hleave hw
  have hkey : s.key < w.hub.sessions.length := hmade hremoved.present
  have hlength : (({ w.hub with directory := d } : Hub).modifyState s fun state =>
      { state with retired := true }).sessions.length = w.hub.sessions.length :=
    Hub.length_modifyState _ _ _
  refine .inr ⟨s, htoken, ⟨?_, ?_, fun s' hs' => ?_⟩, fun n => ?_, fun key hk => ?_⟩
  · rw [hhub, hdirectory]
    exact hremoved
  · rw [hhub, hsessions]
    exact hlength
  · rw [hhub, Hub.stateOf_of_sessions hsessions]
    · exact Hub.stateOf_modifyState _ hkey
    · exact lt_of_lt_of_eq hs' hlength.symm
  · rw [hcache]
    exact World.reliable_update hreliable _ n
  · rw [World.record, hcache]
    show (w₁.update _).record _ = _
    rw [World.record_update hreliable, hrecord key hk]
    simp only [Update.noSession, Call.leaves, List.mem_cons, List.not_mem_nil, or_false]
    rfl

/-! ## A login -/

theorem Session.welcome_ends {s : Session} {w w' : World} {x : Except RegistryError Session}
    (h : s.welcome.Ends w x w') : x = .ok s := by
  obtain ⟨_, _, _, h⟩ := Routine.ends_bind.mp h
  obtain ⟨_, _, _, h⟩ := Routine.ends_bind.mp h
  obtain ⟨_, _, _, h⟩ := Routine.ends_bind.mp h
  obtain ⟨_, _, _, h⟩ := Routine.ends_bind.mp h
  obtain ⟨_, _, _, h⟩ := Routine.ends_bind.mp h
  obtain ⟨_, _, _, h⟩ := Routine.ends_bind.mp h
  exact (Routine.ends_done.mp h).1

theorem Session.greet_ends {s : Session} {w w' : World} {x : Except RegistryError Session}
    (h : s.greet.Ends w x w') : x = .ok s ∧ w'.hub = w.hub ∧
      w'.cache = ((w.update (.session s.token s.id)).update
        (.status s.id (w.hub.stateOf s).status)).cache := by
  obtain ⟨_, w₁, h₁, h⟩ := Routine.ends_bind.mp h
  rw [Routine.ends_update] at h₁
  subst h₁
  obtain ⟨status, w₂, h₂, h⟩ := Routine.ends_bind.mp h
  obtain ⟨rfl, rfl⟩ := Routine.ends_read.mp h₂
  obtain ⟨_, w₃, h₃, h⟩ := Routine.ends_bind.mp h
  rw [Routine.ends_update] at h₃
  subst h₃
  obtain ⟨hhub, hcache⟩ := s.silent_welcome.ends h
  rw [World.update_hub, World.update_hub] at hhub
  rw [World.update_hub] at hcache
  exact ⟨s.welcome_ends h, hhub, hcache⟩

theorem login_ends {w w' : World} {profile : Profile} {token : String} {line : Nat}
    {x : Except RegistryError Session} (h : (login profile token line).Ends w x w') :
    (x = .error .duplicateToken ∧ w' = { w with hub := (w.hub.addSession profile token line).2 }) ∨
    ∃ s d w₁, s = (w.hub.addSession profile token line).1 ∧ x = .ok s ∧
      w.hub.directory.Entered s d ∧ s.greet.Ends w₁ x w' ∧
      match w.hub.directory.ofUser s.id with
      | none => w₁ = { w with
          hub := { (w.hub.addSession profile token line).2 with directory := d } }
      | some old => ∃ w₀, w₀.hub = { (w.hub.addSession profile token line).2 with directory := d } ∧
          w₀.cache = w.cache ∧ (disconnect old.token).Ends w₀ () w₁ := by
  rw [login_eq] at h
  obtain ⟨s, w₀, h₀, h⟩ := Routine.ends_bind.mp h
  obtain ⟨hs, rfl⟩ := Routine.ends_transact.mp h₀
  obtain ⟨found, w₁, h₁, h⟩ := Routine.ends_bind.mp h
  obtain ⟨rfl, rfl⟩ := Routine.ends_transact.mp h₁
  rcases register_cases s (w.hub.addSession profile token line).2 with ⟨heq, -⟩ | ⟨d, heq, hd⟩
  · rw [heq] at h
    obtain ⟨rfl, rfl⟩ := Routine.ends_done.mp h
    exact .inl ⟨rfl, rfl⟩
  · rw [heq] at h
    have hprevious : (w.hub.addSession profile token line).2.directory.ofUser s.id =
        w.hub.directory.ofUser s.id := rfl
    rw [hprevious] at h
    cases ho : w.hub.directory.ofUser s.id with
    | none =>
      rw [ho] at h
      exact .inr ⟨s, d, _, hs, (Session.greet_ends h).1, hd, h, by rw [ho]⟩
    | some old =>
      rw [ho] at h
      obtain ⟨_, w₀, h₀, h⟩ := Routine.ends_bind.mp h
      obtain ⟨hhub, hcache⟩ := (old.silent_send _).ends h₀
      obtain ⟨_, w₁, h₁, h⟩ := Routine.ends_bind.mp h
      refine .inr ⟨s, d, w₁, hs, (Session.greet_ends h).1, hd, h, ?_⟩
      rw [ho]
      exact ⟨w₀, hhub, hcache, h₁⟩

theorem login_admitted {w w' : World} {profile : Profile} {token : String} {line : Nat}
    {x : Except RegistryError Session} (hw : w.Reliable) (hh : w.hub.Orderly)
    (h : (login profile token line).Ends w x w') :
    (x = .error .duplicateToken ∧ w' = { w with hub := (w.hub.addSession profile token line).2 }) ∨
    ∃ s, x = .ok s ∧ s.token = token ∧ s.profile = profile ∧ w.hub.Admitted s w'.hub ∧
      w'.Reliable ∧ ∀ key, OutsideRooms key → w'.record key =
        if key = (Key.session s.token).text then some (.session s.id)
        else if key = (Key.status s.id).text then some (.status .initial)
        else if ∃ old, w.hub.directory.ofUser s.id = some old ∧
          key = (Key.session old.token).text then none
        else w.record key := by
  rcases login_ends h with h | ⟨s, d, w₁, hs, hx, hd, hgreet, hw₁⟩
  · exact .inl h
  obtain ⟨-, hhub, hcache⟩ := s.greet_ends hgreet
  -- the world between the teardown of the old session and the writes for the new one
  obtain ⟨hadmitted, hreliable, hrecord⟩ : w.hub.Admitted s w₁.hub ∧ w₁.Reliable ∧
      ∀ key, OutsideRooms key → key ≠ (Key.status s.id).text → w₁.record key =
        if ∃ old, w.hub.directory.ofUser s.id = some old ∧
          key = (Key.session old.token).text then none
        else w.record key := by
    cases ho : w.hub.directory.ofUser s.id with
    | none =>
      rw [ho] at hw₁
      subst hw₁
      refine ⟨Hub.admitted_of_first hs hd ho, hw, fun key _ _ => ?_⟩
      simp [World.record]
    | some old =>
      rw [ho] at hw₁
      obtain ⟨w₀, hhub₀, hcache₀, hdisconnect⟩ := hw₁
      have hhub₀ : w₀.hub = w.hub.entering profile token line d := hhub₀
      have hreliable₀ : w₀.Reliable := fun n => by rw [hcache₀]; exact hw n
      have hcoherent : w₀.hub.directory.Coherent := by
        rw [hhub₀]
        exact hh.coherent.entered hd
      have hpresent : w₀.hub.directory.ofToken old.token = some old := by
        rw [hhub₀]
        show d.ofToken old.token = some old
        rw [hd.ofToken, if_neg fun h => hh.coherent.ofToken_ne hd.fresh ho h.symm]
        exact hh.coherent.known ho
      have hmade : ∀ {t s'}, w₀.hub.directory.ofToken t = some s' →
          s'.key < w₀.hub.sessions.length := by
        intro t s' hs'
        rw [hhub₀] at hs' ⊢
        rw [Hub.length_entering]
        have hs' : d.ofToken t = some s' := hs'
        rw [hd.ofToken] at hs'
        split at hs'
        · cases hs'
          rw [hs]
          exact Nat.lt_succ_self _
        · exact Nat.lt_succ_of_lt (hh.made (hh.current hs'))
      rcases disconnect_dismissed hreliable₀ hcoherent hmade hdisconnect with ⟨hnone, -⟩ |
        ⟨old', htoken, hdismissed, hreliable₁, hrecord₁⟩
      · rw [hpresent] at hnone
        cases hnone
      · have hpresent' := hdismissed.directory.present
        rw [htoken, hpresent] at hpresent'
        cases hpresent'
        rw [hhub₀] at hdismissed
        refine ⟨Hub.admitted_of_dismissed hh hs hd ho hdismissed, hreliable₁,
          fun key hk hstatus => ?_⟩
        have hid : old.id = s.id := hh.coherent.user ho
        rw [hrecord₁ key hk, hid]
        simp only [hstatus, or_false, World.record, hcache₀, Option.some.injEq, exists_eq_left']
  refine .inr ⟨s, hx, by rw [hs]; rfl, by rw [hs]; rfl, hhub ▸ hadmitted, fun n => ?_,
    fun key hk => ?_⟩
  · rw [hcache]
    exact World.reliable_update (World.reliable_update hreliable _) _ n
  · have hstatus : (w₁.hub.stateOf s).status = .initial := by rw [hadmitted.own]; rfl
    rw [World.record, hcache, hstatus]
    show World.record (World.update _ _) _ = _
    rw [World.record_update (World.reliable_update hreliable _),
      World.record_update hreliable]
    show (if (Key.status s.id).text = key then _ else
      if (Key.session s.token).text = key then _ else w₁.record key) = _
    simp only [eq_comm (a := (Key.status s.id).text), eq_comm (a := (Key.session s.token).text)]
    by_cases hsession : key = (Key.session s.token).text
    · rw [if_pos hsession, if_pos hsession, if_neg]
      · rfl
      · rw [hsession, Key.text_inj]
        simp
    · rw [if_neg hsession, if_neg hsession]
      by_cases hstatus : key = (Key.status s.id).text
      · rw [if_pos hstatus, if_pos hstatus]
        rfl
      · rw [if_neg hstatus, if_neg hstatus, hrecord key hk hstatus]

/-! ## The records of statuses -/

section Statuses

variable {w w' : World}

/-- the record of the status of a user is right -/
def World.ShowsStatus (w : World) (user : Int32) : Prop :=
  w.record (Key.status user).text = (w.hub.currentStatus user).map fun p => .status p.2

/-- neither the status of a user nor the record of it has changed -/
def World.SameStatus (w w' : World) (user : Int32) : Prop :=
  w'.hub.currentStatus user = w.hub.currentStatus user ∧
    w'.record (Key.status user).text = w.record (Key.status user).text

theorem disconnect_status {token : String} {x : Unit} (hw : w.Reliable) (hh : w.hub.Orderly)
    (h : (disconnect token).Ends w x w') (user : Int32) :
    w'.ShowsStatus user ∨ w.SameStatus w' user := by
  rcases disconnect_dismissed hw hh.coherent (fun hs => hh.made (hh.current hs)) h with
    ⟨-, rfl⟩ | ⟨s, -, hd, -, hrecord⟩
  · exact .inr ⟨rfl, rfl⟩
  · obtain ⟨hown, hother⟩ := Hub.currentStatus_dismissed hh hd
    have hkey := hrecord (Key.status user).text (outsideRooms_text id)
    simp only [Key.text_inj] at hkey
    by_cases hu : s.id = user
    · subst hu
      rw [if_pos (.inr rfl)] at hkey
      left
      rw [World.ShowsStatus, hkey, hown]
      rfl
    · rw [if_neg] at hkey
      · exact .inr ⟨hother user hu, hkey⟩
      · rintro (heq | heq)
        · cases heq
        · cases heq
          exact hu rfl

theorem login_status {profile : Profile} {token : String} {line : Nat}
    {x : Except RegistryError Session} (hw : w.Reliable) (hh : w.hub.Orderly)
    (h : (login profile token line).Ends w x w') (user : Int32) :
    w'.ShowsStatus user ∨ w.SameStatus w' user := by
  rcases login_admitted hw hh h with ⟨-, rfl⟩ | ⟨s, -, -, -, ha, -, hrecord⟩
  · exact .inr ⟨Hub.currentStatus_addSession hh profile token line, rfl⟩
  · obtain ⟨hown, hother⟩ := Hub.currentStatus_admitted hh ha
    have hkey := hrecord (Key.status user).text (outsideRooms_text id)
    simp only [Key.text_inj, reduceCtorEq, if_false] at hkey
    by_cases hu : s.id = user
    · subst hu
      rw [if_pos rfl] at hkey
      left
      rw [World.ShowsStatus, hkey, hown]
      rfl
    · rw [if_neg (by rintro heq; cases heq; exact hu rfl),
        if_neg (by rintro ⟨_, _, heq⟩; cases heq)]
        at hkey
      exact .inr ⟨hother user hu, hkey⟩

end Statuses

end RhythmLobby
