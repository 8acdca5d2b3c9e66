import RhythmLobby.Proofs.Room.Packets
import RhythmLobby.Proofs.Session.Statuses

/-!
# The records of all sessions

Tasks that run alone leave the records of sessions and statuses as memory has it by then.

* `World.SessionBooks`     the records of sessions and statuses are as memory has it;
* `World.Kept`             so are the records of rooms;
* `takes_login`, `takes_disconnect`, `takes_shutdown`   users come and go;
* `Session.takes_dispatch`   a packet is carried out.
-/

namespace RhythmLobby
open Cache Routine

/-- the key is one under which a user, a session or a room has a record -/
def Cache.Owned (key : String) : Prop := ∃ k : Key, k ≠ .online ∧ key = k.text

theorem Cache.owned_of_not_outside {key : String} (h : ¬ OutsideRooms key) : Owned key := by
  simp only [OutsideRooms, Classical.not_forall, Classical.not_not] at h
  obtain ⟨k, hk, rfl⟩ := h
  refine ⟨k, ?_, rfl⟩
  intro heq
  subst heq
  exact hk

namespace World

/-- The records of sessions and statuses are as memory has it, and there are no records of unknown
kinds.  The sessions in `known` have been online at some time. -/
structure SessionBooks (known : Session → Prop) (w : World) : Prop where
  reliable : w.Reliable
  orderly : w.hub.Orderly
  rightful : ∀ s, known s → w.hub.Rightful s
  session : ∀ token, w.record (Key.session token).text =
    (w.hub.directory.ofToken token).map fun s => .session s.id
  status : ∀ user, w.ShowsStatus user
  owned : ∀ key, w.record key ≠ none → Owned key

variable {known : Session → Prop} {w w' : World}

/-- the same sessions with the same statuses, and the same records -/
theorem SessionBooks.elsewhere (hw : w.SessionBooks known) (hu : w.hub.SameUse w'.hub)
    (hs : ∀ user, w'.hub.currentStatus user = w.hub.currentStatus user) (hr : w'.Reliable)
    (hrecord : ∀ key, OutsideRooms key → w'.record key = w.record key) :
    w'.SessionBooks known where
  reliable := hr
  orderly := hw.orderly.sameUse hu
  rightful s hk := (hw.rightful s hk).sameUse hu
  session token := by
    rw [hrecord _ (outsideRooms_text id), hu.directory]
    exact hw.session token
  status user := by
    rw [ShowsStatus, hrecord _ (outsideRooms_text id), hs]
    exact hw.status user
  owned key hkey := by
    by_cases ho : OutsideRooms key
    · rw [hrecord key ho] at hkey
      exact hw.owned key hkey
    · exact owned_of_not_outside ho

/-- whatever memory and the store are like otherwise -/
theorem SessionBooks.memory (hw : w.SessionBooks known) (hu : w.hub.SameUse w'.hub)
    (hs : ∀ user, w'.hub.currentStatus user = w.hub.currentStatus user)
    (hc : w'.cache = w.cache) : w'.SessionBooks known :=
  hw.elsewhere hu hs (fun n => by rw [hc, hw.reliable]) fun _ _ => by rw [record, record, hc]

theorem SessionBooks.congr (hhub : w'.hub = w.hub) (hcache : w'.cache = w.cache)
    (hw : w.SessionBooks known) : w'.SessionBooks known :=
  hw.memory (Hub.sameUse_of_sessions (by rw [hhub]) (by rw [hhub])) (fun _ => by rw [hhub]) hcache

theorem SessionBooks.roomsOnly {α : Type} {r : Routine α} {x : α} (hw : w.SessionBooks known)
    (hr : r.RoomsOnly) (h : r.Ends w x w') : w'.SessionBooks known := by
  obtain ⟨⟨hd, hs⟩, hreliable, hrecord⟩ := hr.ends h hw.reliable
  exact hw.elsewhere (Hub.sameUse_of_sessions hd hs)
    (fun _ => Hub.currentStatus_of_sessions hw.orderly hd hs) hreliable hrecord

theorem SessionBooks.login {profile : Profile} {token : String} {line : Nat}
    {x : Except RegistryError Session} (hw : w.SessionBooks known)
    (h : (RhythmLobby.login profile token line).Ends w x w') :
    w'.SessionBooks fun s => known s ∨ x = .ok s := by
  have hstatus : ∀ user, w'.ShowsStatus user := by
    intro user
    rcases login_status hw.reliable hw.orderly h user with hs | ⟨hlive, hrecord⟩
    · exact hs
    · rw [ShowsStatus, hlive, hrecord]
      exact hw.status user
  rcases login_admitted hw.reliable hw.orderly h with ⟨rfl, rfl⟩ | ⟨s, rfl, -, -, ha, hr, hrecord⟩
  · have hu := w.hub.sameUse_addSession profile token line
    refine ⟨hw.reliable, hw.orderly.sameUse hu, fun s hs => ?_, hw.session, hstatus, hw.owned⟩
    rcases hs with hs | hs
    · exact (hw.rightful s hs).sameUse hu
    · cases hs
  · refine ⟨hr, hw.orderly.admitted ha, fun s' hs' => ?_, fun token => ?_, hstatus,
      fun key hkey => ?_⟩
    · rcases hs' with hs' | hs'
      · exact (hw.rightful s' hs').admitted ha
      · cases hs'
        exact ha.rightful hw.orderly
    · rw [hrecord _ (outsideRooms_text id), ha.ofToken]
      simp only [Key.text_inj, Key.session.injEq, eq_comm (a := token), reduceCtorEq, if_false]
      rw [hw.session]
      split
      · rfl
      · split <;> rfl
    · by_cases ho : OutsideRooms key
      · rw [hrecord key ho] at hkey
        split at hkey
        · exact ⟨.session s.token, by simp, ‹_›⟩
        · split at hkey
          · exact ⟨.status s.id, by simp, ‹_›⟩
          · split at hkey
            · cases hkey rfl
            · exact hw.owned key hkey
      · exact owned_of_not_outside ho

theorem SessionBooks.disconnect {token : String} {x : Unit} (hw : w.SessionBooks known)
    (h : (RhythmLobby.disconnect token).Ends w x w') : w'.SessionBooks known := by
  have hstatus : ∀ user, w'.ShowsStatus user := by
    intro user
    rcases disconnect_status hw.reliable hw.orderly h user with hs | ⟨hlive, hrecord⟩
    · exact hs
    · rw [ShowsStatus, hlive, hrecord]
      exact hw.status user
  have hmade : ∀ {t s}, w.hub.directory.ofToken t = some s → s.key < w.hub.sessions.length :=
    fun hs => hw.orderly.made (hw.orderly.current hs)
  rcases disconnect_dismissed hw.reliable hw.orderly.coherent hmade h with
    ⟨-, rfl⟩ | ⟨s, -, hd, hr, hrecord⟩
  · exact hw
  · refine ⟨hr, hw.orderly.dismissed hd, fun s' hs' => (hw.rightful s' hs').dismissed hw.orderly hd,
      fun token => ?_, hstatus, fun key hkey => ?_⟩
    · rw [hrecord _ (outsideRooms_text id), hd.directory.ofToken, hw.session]
      simp only [Key.text_inj, Key.session.injEq, eq_comm (a := token), reduceCtorEq, or_false]
      split <;> rfl
    · by_cases ho : OutsideRooms key
      · rw [hrecord key ho] at hkey
        split at hkey
        · cases hkey rfl
        · exact hw.owned key hkey
      · exact owned_of_not_outside ho

theorem SessionBooks.modifyState {s : Session} {f : SessionState → SessionState}
    (hw : w.SessionBooks known) (hs : known s)
    (hretired : ∀ state, (f state).retired = state.retired)
    (hstatus : ∀ state, (f state).status = state.status) :
    SessionBooks known { w with hub := w.hub.modifyState s f } := by
  have hmade := (hw.rightful s hs).made
  exact hw.memory (Hub.sameUse_modifyState hretired hmade)
    (fun _ => Hub.currentStatus_modifyState_of_status hstatus hmade) rfl

end World

/-! ## A new status -/

namespace Status

/-- the task may change statuses in memory and in the store, and nothing else -/
def StatusOnly {α : Type} (r : Routine α) : Prop :=
  r.Within (fun h h' => h'.directory = h.directory ∧ h.SameRooms h') fun e =>
    ∀ key, (∀ user, key ≠ (Key.status user).text) → ∀ r, e.leaves key r = r

theorem statusOnly_of_silent {α : Type} {r : Routine α} (hr : r.Silent) : StatusOnly r :=
  hr.mono (fun _ _ hm => hm ▸ ⟨rfl, rfl, rfl, rfl⟩) fun e he key _ r =>
    e.leaves_of_call?_eq_none he key r

theorem leaves_status_other {key : String} (hk : ∀ user, key ≠ (Key.status user).text)
    (user : Int32) (status : ClientStatus) (r : Option Record) :
    (Update.status user status).call.leaves key r = r := if_neg (hk user).symm

theorem statusOnly_resync (user : Int32) : StatusOnly (resyncStatus user) := by
  refine within_settling _ fun found h => ?_
  cases found with
  | begin =>
    unfold Resync.turn
    dsimp only
    split
    · exact trivial
    · intro key hk r
      exact if_neg fun h => hk user (List.mem_singleton.mp h)
  | found s => exact fun key hk r => leaves_status_other hk user _ r
  | wrote s status =>
    unfold Resync.turn
    dsimp only
    split <;> exact trivial
  | alive s status =>
    unfold Resync.turn
    dsimp only
    split <;> exact trivial
  | deleted =>
    unfold Resync.turn
    dsimp only
    split <;> exact trivial

theorem statusOnly_changeStatus (s : Session) (status : ClientStatus) :
    StatusOnly (s.changeStatus status) := by
  refine within_bind (within_bind (within_transact fun _ => ⟨rfl, rfl, rfl, rfl⟩) fun retired => ?_)
    fun ok => ?_
  · split
    · exact within_done _
    · refine within_bind (within_update fun key hk r => leaves_status_other hk s.id status r)
        fun _ => within_settling _ fun found h => ?_
      unfold Session.statusTurn
      dsimp only
      split
      · exact trivial
      · split
        · exact trivial
        · exact fun key hk r => leaves_status_other hk s.id _ r
  · split
    · exact within_bind (statusOnly_of_silent (silent_announce _)) fun _ => within_done _
    · exact within_bind (statusOnly_resync s.id) fun _ => within_done _

theorem StatusOnly.ends {α : Type} {r : Routine α} (hr : StatusOnly r) {w w' : World} {x : α}
    (h : r.Ends w x w') (hw : w.Reliable) :
    w'.hub.directory = w.hub.directory ∧ w.hub.SameRooms w'.hub ∧ w'.Reliable ∧
      ∀ key, (∀ user, key ≠ (Key.status user).text) → w'.record key = w.record key := by
  refine Within.induction (P := fun v => v.hub.directory = w.hub.directory ∧
    w.hub.SameRooms v.hub ∧ v.Reliable ∧
    ∀ key, (∀ user, key ≠ (Key.status user).text) → v.record key = w.record key) hr ?_ ?_ h
    ⟨rfl, ⟨rfl, rfl, rfl⟩, hw, fun _ _ => rfl⟩
  · intro v h hv hm
    obtain ⟨hd, hs, hv⟩ := hv
    exact ⟨hm.1.trans hd, ⟨hm.2.openRooms.trans hs.openRooms, hm.2.rooms.trans hs.rooms,
      hm.2.nextRoom.trans hs.nextRoom⟩, hv⟩
  · intro v e hv he
    obtain ⟨hd, hs, hv, hrecord⟩ := hv
    rw [Effect.perform_hub]
    refine ⟨hd, hs, World.reliable_perform hv e, fun key hk => ?_⟩
    rw [World.record_perform hv, ← hrecord key hk]
    exact he key hk _

end Status

namespace World

variable {known : Session → Prop} {w w' : World}

theorem SessionBooks.changeStatus {s : Session} {status : ClientStatus}
    {x : Except Refusal Unit} (hw : w.SessionBooks known) (hs : known s)
    (h : (s.changeStatus status).Ends w x w') : w'.SessionBooks known := by
  have hr := hw.rightful s hs
  have hclears : ∀ user, (statusSlot user).Clears (s.changeStatus status) w.hub .nothing :=
    fun user => Status.clears_changeStatus status hr
  obtain ⟨hd, -, hreliable, hrecord⟩ := (Status.statusOnly_changeStatus s status).ends h hw.reliable
  have hends := fun user => (hclears user).ends hw.orderly hw.reliable (hw.status user) h
  obtain ⟨horderly, hdrift, -⟩ := hends 0
  refine ⟨hreliable, horderly, fun s' hs' => hdrift s' (hw.rightful s' hs'), fun token => ?_,
    fun user => (hends user).2.2.2, fun key hkey => ?_⟩
  · rw [hd, ← hw.session token]
    refine hrecord _ fun user heq => ?_
    rw [Key.text_inj] at heq
    cases heq
  · by_cases hk : ∃ user, key = (Key.status user).text
    · obtain ⟨user, rfl⟩ := hk
      exact ⟨.status user, by simp, rfl⟩
    · rw [hrecord key fun user heq => hk ⟨user, heq⟩] at hkey
      exact hw.owned key hkey

/-! ## All books -/

/-- all records are as memory has it, after at most `n` ids of rooms have been given away -/
structure Kept (known : Session → Prop) (n : Nat) (w : World) : Prop where
  sessions : w.SessionBooks known
  rooms : w.RoomsKept n

variable {n : Nat}

theorem Kept.of_known {known' : Session → Prop} (hw : w.Kept known n)
    (h : ∀ s, known' s → known s) : w.Kept known' n :=
  ⟨{ hw.sessions with rightful := fun s hs => hw.sessions.rightful s (h s hs) }, hw.rooms⟩

theorem Kept.congr {w v : World} (hw : w.Kept known n) (hhub : v.hub = w.hub)
    (hcache : v.cache = w.cache) : v.Kept known n :=
  ⟨hw.sessions.congr hhub hcache, hw.rooms.congr hhub hcache⟩

theorem takes_kept_of_silent {α : Type} {r : Routine α} (hr : r.Silent) :
    r.Takes (Kept known n) fun _ => Kept known n :=
  hr.takes fun _ _ hhub hcache hw => hw.congr hhub hcache

theorem takes_kept_of_room {α : Type} {r : Routine α} {m : α → Nat}
    (hr : RoomTask (RoomsKept n) r fun x => RoomsKept (m x)) :
    r.Takes (Kept known n) fun x => Kept known (m x) :=
  fun _ _ _ hw h => ⟨hw.sessions.roomsOnly hr.only h, hr.takes hw.rooms h⟩

theorem takes_updateElsewhere {u : Update}
    (hu : ∀ k : Key, k.OfRoom → ∀ r, u.call.leaves k.text r = r) :
    (Routine.update u).Takes (RoomsKept n) fun _ => RoomsKept n := by
  refine takes_update fun w hw => ?_
  obtain ⟨k, hk, hb, ho⟩ := hw
  have hsame : w.hub.SameRooms (w.update u).hub := by
    rw [World.update_hub]
    exact ⟨rfl, rfl, rfl⟩
  refine ⟨k, hk, hb.elsewhere hsame (reliable_update hb.reliable u) fun l hl => ?_,
    hsame.allOpen ho⟩
  rw [record_update hb.reliable, hu l hl]

end World

open World

variable {known : Session → Prop} {n : Nat}

/-! ## Users come and go -/

theorem takes_disconnect_roomsKept (token : String) :
    (disconnect token).Takes (RoomsKept n) fun _ => RoomsKept n := by
  rw [disconnect_eq]
  refine takes_bind (Q := fun _ => RoomsKept n) (takes_transact fun w hw => ?_) fun found => ?_
  · refine hw.elsewhere ?_ rfl
    unfold deregister
    split <;> exact ⟨rfl, rfl, rfl⟩
  cases found with
  | none => exact takes_done fun _ hw => hw
  | some s =>
    refine takes_bind (Q := fun _ => RoomsKept n)
      (takes_change fun w hw => hw.elsewhere ⟨rfl, rfl, rfl⟩ rfl) fun _ => ?_
    refine takes_bind (RoomNews.roomTask_leaveCurrent s.id).takes fun _ => ?_
    refine takes_bind (takes_updateElsewhere fun k hk r => ?_) fun _ =>
      takes_of_silent s.silent_farewell
    rw [Update.leaves_noSession, if_neg]
    rintro (rfl | rfl)
    · exact hk
    · exact hk

theorem takes_greet_roomsKept (s : Session) : s.greet.Takes (RoomsKept n) fun _ => RoomsKept n := by
  refine takes_bind (takes_updateElsewhere fun k hk r => ?_) fun _ =>
    takes_bind (Q := fun _ => RoomsKept n) (takes_read fun _ hw => hw) fun status =>
      takes_bind (takes_updateElsewhere fun k hk r => ?_) fun _ => takes_of_silent s.silent_welcome
  · rw [Update.leaves_session, if_neg]
    intro heq
    subst heq
    exact hk
  · rw [Update.leaves_status, if_neg]
    intro heq
    subst heq
    exact hk

theorem takes_login_roomsKept (profile : Profile) (token : String) (line : Nat) :
    (login profile token line).Takes (RoomsKept n) fun _ => RoomsKept n := by
  rw [login_eq]
  refine takes_bind (Q := fun _ => RoomsKept n)
    (takes_transact fun w hw => hw.elsewhere ⟨rfl, rfl, rfl⟩ rfl) fun s => ?_
  refine takes_bind (Q := fun _ => RoomsKept n) (takes_transact fun w hw => ?_) fun found => ?_
  · refine hw.elsewhere ?_ rfl
    unfold register
    split <;> exact ⟨rfl, rfl, rfl⟩
  rcases found with e | _ | old
  · exact takes_done fun _ hw => hw
  · exact takes_greet_roomsKept s
  · exact takes_bind (takes_of_silent (old.silent_send _)) fun _ =>
      takes_bind (takes_disconnect_roomsKept old.token) fun _ => takes_greet_roomsKept s

theorem takes_disconnect (token : String) :
    (disconnect token).Takes (Kept known n) fun _ => Kept known n :=
  fun _ _ _ hw h => ⟨hw.sessions.disconnect h, takes_disconnect_roomsKept token hw.rooms h⟩

theorem takes_login (profile : Profile) (token : String) (line : Nat) :
    (login profile token line).Takes (Kept known n) fun x =>
      Kept (fun s => known s ∨ x = .ok s) n :=
  fun _ _ _ hw h => ⟨hw.sessions.login h, takes_login_roomsKept profile token line hw.rooms h⟩

theorem takes_shutdown : shutdown.Takes (Kept known n) fun _ => Kept known n := by
  refine takes_bind (takes_kept_of_room RoomNews.roomTask_closeAll) fun _ => ?_
  refine takes_bind (takes_kept_of_silent (silent_read _)) fun sessions => ?_
  refine takes_each (fun s => ?_) sessions
  exact takes_bind (takes_kept_of_silent (s.silent_send _)) fun _ => takes_disconnect s.token

end RhythmLobby
