import RhythmLobby.Proofs.Hub.Slot
import RhythmLobby.Proofs.Session.Presence

/-!
# Records of statuses

The status of a session is stored at one moment and written later, when the user may have a new
session or none.  Each write is followed by another look at memory, until the record is right or
somebody else answers for it.

* `statusSlot`           the record of the status of a user;
* `clears_resync`        a resynchronisation does any duty;
* `clears_changeStatus`  a new status leaves no duty behind;
* `status_records_follow`   the records when no new status is being handled.
-/

namespace RhythmLobby
open Cache Hub

/-- the record of the status of a user -/
def statusSlot (user : Int32) : Slot where
  Value := Option (Session × ClientStatus)
  key := (Key.status user).text
  live h := h.currentStatus user
  shows v r := r = v.map fun p => .status p.2
  sound := Hub.Orderly
  drift h h' := ∀ s, h.Rightful s → h'.Rightful s
  drift_refl _ _ hr := hr
  drift_trans h₁ h₂ s hr := h₂ s (h₁ s hr)

namespace Status

variable {user : Int32} {α : Type}

theorem leaves_status_self (user : Int32) (status : ClientStatus) (r : Option Record) :
    (Update.status user status).call.leaves (Key.status user).text r = some (.status status) :=
  (Update.leaves_status _ r user status).trans (if_pos rfl)

theorem leaves_noStatus_self (user : Int32) (r : Option Record) :
    (Update.noStatus user).call.leaves (Key.status user).text r = none :=
  (Update.leaves_noStatus _ r user).trans (if_pos rfl)

theorem status_ne {user' : Int32} (hu : user ≠ user') : Key.status user ≠ .status user' :=
  fun h => hu (by cases h; rfl)

/-! ## A resynchronisation -/

/-- what a resynchronisation knows while it looks at memory -/
def Knows (user : Int32) (found : Resync) (h : Hub) (d : (statusSlot user).Duty) : Prop :=
  match found with
  | .begin => True
  | .found s => h.Rightful s ∧ s.id = user
  | .wrote s status => h.Rightful s ∧ s.id = user ∧ d = .wrote (some (.status status))
  | .alive s status => d = .wroteFor (some (.status status)) fun v => ∃ st, v = some (s, st)
  | .deleted => d = .wrote none

theorem clears_resync (h : Hub) (d : (statusSlot user).Duty) :
    (statusSlot user).Clears (resyncStatus user) h d := by
  refine ⟨Knows user, trivial, fun found h d hk h₁ hdrift hs => ?_⟩
  have hs : h₁.Orderly := hs
  cases found with
  | begin =>
    cases ho : h₁.directory.ofUser user with
    | none =>
      simp only [Resync.turn, ho]
      exact ⟨d, Discipline.turn_refl _ h₁ d, fun h₂ _ _ =>
        ⟨.wrote none, Slot.emit_wrote (S := statusSlot user)
          (e := .update (.noStatus user)) (leaves_noStatus_self user) d, rfl⟩⟩
    | some s =>
      simp only [Resync.turn, ho]
      exact ⟨d, Discipline.turn_refl _ h₁ d, hs.rightful ho, hs.coherent.user ho⟩
  | found s =>
    obtain ⟨hr, hid⟩ := hk
    refine ⟨d, Discipline.turn_refl _ h₁ d, fun h₂ hdrift₂ _ => ?_⟩
    exact ⟨_, Slot.emit_wrote (S := statusSlot user) (e := .update (.status user _))
      (leaves_status_self user _) d, hdrift₂ s (hdrift s hr), hid, rfl⟩
  | wrote s status =>
    obtain ⟨hr, rfl, rfl⟩ := hk
    by_cases hretired : (h₁.stateOf s).retired = true
    · simp only [Resync.turn, hretired, if_true]
      exact ⟨_, Discipline.turn_refl _ h₁ _, trivial⟩
    · simp only [Resync.turn, hretired]
      have honline := (hdrift s hr).online (Bool.eq_false_iff.mpr hretired)
      refine ⟨_, Slot.turn_weaken fun r hd => ⟨hd, _, currentStatus_of_some honline⟩, rfl⟩
  | alive s status =>
    have hd : d = .wroteFor (some (.status status)) fun v => ∃ st, v = some (s, st) := hk
    subst hd
    by_cases hsame : (h₁.stateOf s).status = status
    · simp only [Resync.turn, hsame, if_true]
      refine ⟨_, Slot.turn_discharge ?_, rfl⟩
      intro r hboth
      obtain ⟨rfl, st, hlive⟩ := hboth
      have hlive : h₁.currentStatus user = some (s, st) := hlive
      obtain ⟨s', -, heq⟩ := Option.map_eq_some_iff.mp hlive
      cases heq
      show _ = (h₁.currentStatus user).map _
      rw [hlive, hsame]
      rfl
    · simp only [Resync.turn, hsame, if_false]
      exact ⟨_, Discipline.turn_refl _ h₁ _, trivial⟩
  | deleted =>
    have hd : d = .wrote none := hk
    subst hd
    cases ho : h₁.directory.ofUser user with
    | none =>
      simp only [Resync.turn, ho, Option.isNone_none, if_true]
      refine ⟨_, Slot.turn_discharge ?_, rfl⟩
      intro r hequal
      subst hequal
      show none = (h₁.currentStatus user).map _
      rw [currentStatus_of_none ho]
      rfl
    | some s =>
      simp only [Resync.turn, ho, Option.isNone_some]
      exact ⟨_, Discipline.turn_refl _ h₁ _, trivial⟩

theorem spares_resync {user' : Int32} (hu : user ≠ user') :
    Slot.Spares (Key.status user).text (resyncStatus user') := by
  refine Routine.within_settling _ fun found h => ?_
  have hstatus : ∀ status r,
      (Update.status user' status).call.leaves (Key.status user).text r = r := fun status r =>
    (Update.leaves_status _ r user' status).trans (if_neg (status_ne hu))
  cases found with
  | begin =>
    cases ho : h.directory.ofUser user' with
    | none =>
      simp only [Resync.turn, ho]
      exact fun r => (Update.leaves_noStatus _ r user').trans (if_neg (status_ne hu))
    | some s =>
      simp only [Resync.turn, ho]
      exact trivial
  | found s => exact hstatus _
  | wrote s status =>
    unfold Resync.turn
    dsimp only
    split <;> exact trivial
  | alive s status =>
    unfold Resync.turn
    dsimp only
    split <;> exact trivial
  | deleted =>
    unfold Resync.turn
    dsimp only
    split <;> exact trivial

/-! ## A new status -/

theorem turn_status {h : Hub} {s : Session} (status : ClientStatus) (hh : h.Orderly)
    (hr : h.Rightful s) {d : (statusSlot user).Duty}
    (hd : ((h.stateOf s).retired = true ∨ user ≠ s.id) ∨ ∀ v r, d v r) :
    (statusSlot user).discipline.turn h .nothing
      (h.modifyState s fun state => { state with status := status }) d := by
  have hf : ∀ state : SessionState, { state with status := status }.retired = state.retired :=
    fun _ => rfl
  have hu := Hub.sameUse_modifyState hf hr.made
  refine Slot.turn_begin (fun _ => hh.sameUse hu) (fun s₀ hr₀ => hr₀.sameUse hu) ?_
  rcases hd with hs | hd
  · exact .inl (currentStatus_modifyState hh hr hs)
  · exact .inr (hd _)

theorem keeps_statusTurn {s : Session} (written : ClientStatus) {h : Hub} (hr : h.Rightful s) :
    (statusSlot s.id).discipline.Keeps (Routine.settling s.statusTurn written)
      (fun ok _ d => ok = true → d = .nothing) h (.wrote (some (.status written))) := by
  refine ⟨fun found h d => h.Rightful s ∧ d = .wrote (some (.status found)), ⟨hr, rfl⟩, ?_⟩
  intro found h _ hboth h₁ hdrift hs
  obtain ⟨hr, rfl⟩ := hboth
  have hr := hdrift s hr
  by_cases hretired : (h₁.stateOf s).retired = true
  · simp only [Session.statusTurn, hretired, if_true]
    exact ⟨_, Discipline.turn_refl _ h₁ _, nofun⟩
  · have hlive := currentStatus_of_some (hr.online (Bool.eq_false_iff.mpr hretired))
    by_cases hsame : (h₁.stateOf s).status = found
    · simp only [Session.statusTurn, hretired, hsame, if_true]
      refine ⟨_, Slot.turn_discharge ?_, fun _ => rfl⟩
      intro r heq
      subst heq
      show _ = (h₁.currentStatus s.id).map _
      rw [hlive, hsame]
      rfl
    · simp only [Session.statusTurn, hretired, hsame, if_false]
      exact ⟨_, Discipline.turn_refl _ h₁ _, fun h₂ hdrift₂ _ =>
        ⟨_, Slot.emit_wrote (S := statusSlot s.id) (e := .update (.status s.id _))
          (leaves_status_self s.id _) _, hdrift₂ s hr, rfl⟩⟩

/-- a new status may leave a duty behind only when it tells that the session is used no more -/
theorem keeps_setStatus {s : Session} (status : ClientStatus) {h : Hub} (hr : h.Rightful s) :
    (statusSlot s.id).discipline.Keeps (s.setStatus status)
      (fun ok _ d => ok = true → d = .nothing) h .nothing := by
  refine Discipline.keeps_bind (Q := fun _ h' _ => h'.Rightful s) ?_ ?_
  · refine Discipline.keeps_transact fun h₁ hdrift hs => ?_
    have hr := hdrift s hr
    refine ⟨.owes, turn_status status hs hr (.inr fun _ _ => trivial), ?_⟩
    exact hr.sameUse (Hub.sameUse_modifyState
      (f := fun state => { state with status := status }) (fun _ => rfl) hr.made)
  intro retired h d hr
  cases retired with
  | true => exact nofun
  | false =>
    refine Discipline.keeps_bind (Q := fun _ h' d => h'.Rightful s ∧
      d = .wrote (some (.status status))) ?_ ?_
    · exact Discipline.keeps_update fun h₁ hdrift _ =>
        ⟨_, Slot.emit_wrote (S := statusSlot s.id) (e := .update (.status s.id status))
          (leaves_status_self s.id status) d, hdrift s hr, rfl⟩
    · intro _ h _ hboth
      obtain ⟨hr, rfl⟩ := hboth
      exact keeps_statusTurn status hr

theorem clears_setStatus {s : Session} (status : ClientStatus) {h : Hub} (hr : h.Rightful s)
    (hu : user ≠ s.id) : (statusSlot user).Clears (s.setStatus status) h .nothing := by
  have hstatus : ∀ status r, (Update.status s.id status).call.leaves (Key.status user).text r = r :=
    fun status r => (Update.leaves_status _ r s.id status).trans (if_neg (status_ne hu))
  have hsettling : ∀ written, Slot.Spares (Key.status user).text
      (Routine.settling s.statusTurn written) := by
    refine fun written => Routine.within_settling _ fun found h => ?_
    unfold Session.statusTurn
    dsimp only
    split
    · exact trivial
    · split
      · exact trivial
      · exact hstatus _
  refine Discipline.keeps_bind (Q := fun _ _ d => d = .nothing) ?_ ?_
  · refine Discipline.keeps_transact fun h₁ hdrift hs => ?_
    exact ⟨_, turn_status status hs (hdrift s hr) (.inl (.inr hu)), rfl⟩
  intro retired h _ heq
  subst heq
  cases retired with
  | true => exact Slot.clears_done
  | false =>
    refine (Slot.clears_elsewhere (S := statusSlot user) (Slot.spares_update (hstatus status))
      h).bind fun _ h => ?_
    exact Slot.clears_elsewhere (S := statusSlot user) (hsettling status) h

theorem clears_announce (p : ServerPacket) (h : Hub) :
    (statusSlot user).Clears (announce p) h .nothing := by
  refine Slot.clears_elsewhere ((silent_announce p).mono (fun _ _ => id) fun e he r => ?_) h
  exact e.leaves_of_call?_eq_none he _ r

theorem clears_changeStatus {s : Session} (status : ClientStatus) {h : Hub} (hr : h.Rightful s) :
    (statusSlot user).Clears (s.changeStatus status) h .nothing := by
  by_cases hu : user = s.id
  · subst hu
    refine Discipline.keeps_bind (keeps_setStatus status hr) fun ok h d hd => ?_
    cases ok with
    | true =>
      cases hd rfl
      exact (clears_announce _ h).bind fun _ _ => Slot.clears_done
    | false => exact (clears_resync h d).bind fun _ _ => Slot.clears_done
  · refine (clears_setStatus status hr hu).bind fun ok h => ?_
    cases ok with
    | true => exact (clears_announce _ h).bind fun _ _ => Slot.clears_done
    | false =>
      exact (Slot.clears_elsewhere (S := statusSlot user) (spares_resync hu) h).bind
        fun _ _ => Slot.clears_done

end Status

/-! ## All calls -/

/-- a session gets a new status, a user comes online, or a token goes out of use -/
inductive StatusCall where
  | status (s : Session) (status : ClientStatus)
  | login (profile : Profile) (token : String) (line : Nat) (result : Except RegistryError Session)
  | disconnect (token : String)

namespace StatusCall

/-- the sessions that have come online so far -/
def Known (past : List StatusCall) (s : Session) : Prop :=
  ∃ profile token line, login profile token line (.ok s) ∈ past

/-- New statuses are handled side by side.  Logins and teardowns come in between as a whole. -/
def traffic : Traffic StatusCall where
  task
    | status s new => (s.changeStatus new).void
    | _ => .done ()
  may c
    | status s _ => Known c.past s
    | _ => False
  whole c i w :=
    match i with
    | status _ _ => False
    | login profile token line result =>
      (RhythmLobby.login profile token line).Ends c.world result w
    | disconnect token => (RhythmLobby.disconnect token).Ends c.world () w

/-- sessions that have come online are rightful, and the record is right or answered for -/
def Guard (user : Int32) (w : World) (ds : List (statusSlot user).Duty)
    (past : List StatusCall) : Prop :=
  (∀ s, Known past s → w.hub.Rightful s) ∧ (statusSlot user).Guarded w ds

theorem known_append {past : List StatusCall} {s : Session} {i : StatusCall} :
    Known (past ++ [i]) s ↔
      Known past s ∨ ∃ profile token line, i = login profile token line (.ok s) := by
  simp only [Known, List.mem_append, List.mem_singleton, exists_or, eq_comm]

/-- a login or a teardown: the sessions known so far stay rightful, and the record is right now or
nothing has happened to it -/
theorem guard_whole {w w' : World} {ds : List (statusSlot user).Duty} {past : List StatusCall}
    {i : StatusCall} (hg : Guard user w ds past) (hw' : w'.Reliable)
    (hknown : ∀ s, Known (past ++ [i]) s → w'.hub.Rightful s)
    (hs : w'.ShowsStatus user ∨ w.SameStatus w' user) : Guard user w' ds (past ++ [i]) := by
  refine ⟨hknown, hw', ?_⟩
  rcases hs with hs | ⟨hlive, hrecord⟩
  · exact .inl hs
  · have hlive : (statusSlot user).live w'.hub = (statusSlot user).live w.hub := hlive
    have hrecord : w'.record (statusSlot user).key = w.record (statusSlot user).key := hrecord
    rw [hlive, hrecord]
    exact hg.2.2

theorem guards (user : Int32) : (statusSlot user).discipline.Guards traffic (Guard user) where
  arrive {c ds i} _ hg _ hmay := by
    cases i with
    | status s new =>
      refine ⟨.nothing, (Status.clears_changeStatus new (hg.1 s hmay)).void, fun s₀ hk => ?_,
        hg.2.arrive _⟩
      rcases known_append.mp hk with hk | ⟨_, _, _, heq⟩
      · exact hg.1 s₀ hk
      · cases heq
    | login profile token line result => exact hmay.elim
    | disconnect token => exact hmay.elim
  moves hs hg hm := ⟨fun s hk => hm.drift hs s (hg.1 s hk), Slot.guarded_moves hg.2 hm⟩
  whole {c ds i w} hs hg hw := by
    have hs : c.world.hub.Orderly := hs
    have hreliable := hg.2.1
    cases i with
    | status s new => exact hw.elim
    | login profile token line result =>
      have hstatus := login_status hreliable hs hw user
      rcases login_admitted hreliable hs hw with ⟨rfl, rfl⟩ | ⟨s, rfl, -, -, ha, hw', -⟩
      · have hu := c.world.hub.sameUse_addSession profile token line
        refine ⟨hs.sameUse hu, fun s hr => hr.sameUse hu,
          guard_whole hg hreliable (fun s hk => ?_) hstatus⟩
        rcases known_append.mp hk with hk | ⟨_, _, _, heq⟩
        · exact (hg.1 s hk).sameUse hu
        · cases heq
      · refine ⟨hs.admitted ha, fun s hr => hr.admitted ha,
          guard_whole hg hw' (fun s₀ hk => ?_) hstatus⟩
        rcases known_append.mp hk with hk | ⟨_, _, _, heq⟩
        · exact (hg.1 s₀ hk).admitted ha
        · cases heq
          exact ha.rightful hs
    | disconnect token =>
      have hstatus := disconnect_status hreliable hs hw user
      have hknown : ∀ {h : Hub}, (∀ s, c.world.hub.Rightful s → h.Rightful s) →
          ∀ s, Known (c.past ++ [.disconnect token]) s → h.Rightful s := by
        intro h hr s hk
        rcases known_append.mp hk with hk | ⟨_, _, _, heq⟩
        · exact hr s (hg.1 s hk)
        · cases heq
      rcases disconnect_dismissed hreliable hs.coherent (fun hs₀ => hs.made (hs.current hs₀)) hw
        with ⟨-, rfl⟩ | ⟨s, -, hd, hw', -⟩
      · exact ⟨hs, fun s hr => hr, guard_whole hg hreliable (hknown fun _ => id) hstatus⟩
      · exact ⟨hs.dismissed hd, fun s hr => hr.dismissed hs hd,
          guard_whole hg hw' (hknown fun _ hr => hr.dismissed hs hd) hstatus⟩

theorem tasksFit_begin {w : World} {user : Int32} (hw : w.Reliable)
    (hd : w.hub.directory = .empty) (hr : w.record (Key.status user).text = none) :
    (statusSlot user).discipline.TasksFit (Guard user) ⟨w, [], []⟩ := by
  have ho : ∀ u, w.hub.directory.ofUser u = none := by
    rw [hd]
    exact fun _ => rfl
  refine ⟨Hub.orderly_of_empty hd, [], rfl, nofun, ?_, hw, .inl ?_⟩
  · intro s h
    obtain ⟨_, _, _, hs⟩ := h
    cases hs
  · show w.record (Key.status user).text = (w.hub.currentStatus user).map _
    rw [hr, currentStatus_of_none (ho user)]
    rfl

end StatusCall

/-- When no new status is being handled, the record of every user shows the current status of the
session that the user has, and there is none for a user who is not online. -/
theorem status_records_follow {w : World} (hw : w.Reliable) (hd : w.hub.directory = .empty)
    (hr : ∀ user, w.record (Key.status user).text = none) {c : Scene StatusCall}
    (hc : StatusCall.traffic.Reaches ⟨w, [], []⟩ c) (hq : c.Quiet) (user : Int32) :
    c.world.record (Key.status user).text = (c.world.hub.directory.ofUser user).map
      fun s => .status (c.world.hub.stateOf s).status := by
  have htasksFit := (StatusCall.guards user).reaches hc (StatusCall.tasksFit_begin hw hd (hr user))
  obtain ⟨ds, hrest, hg⟩ := htasksFit.rest hq
  have hshows : c.world.record (Key.status user).text = (c.world.hub.currentStatus user).map _ :=
    hg.2.shows hrest
  rw [hshows, currentStatus, Option.map_map]
  rfl

/-! ## A status that comes too late -/

namespace StatusCall

/-- a user with a number of its own and nothing else -/
def bob : Profile := ⟨2, "", "bob", 0, 0, "", ""⟩

/-- the two sessions of the user, one after the other -/
def first : Session := (World.blank.hub.addSession bob "T1" 0).1

def second (h : Hub) : Session := (h.addSession bob "T2" 1).1

def away : ClientStatus := { ClientStatus.initial with content := "away" }

/-- the first session gets a new status -/
def told : Scene StatusCall :=
  traffic.call ⟨(RhythmLobby.login bob "T1" 0).after 30 .blank, [],
    [login bob "T1" 0 (.ok first)]⟩ (.status first away)

/-- the status has been stored, and its write is on the way -/
def underway : Scene StatusCall := told.turns [0]

/-- the second session takes the place of the first one -/
def displaced : Scene StatusCall :=
  { underway with
    world := (RhythmLobby.login bob "T2" 1).after 30 underway.world
    past := underway.past ++ [login bob "T2" 1 (.ok (second underway.world.hub))] }

/-- the write lands, and memory is looked at again -/
def late : Scene StatusCall := displaced.turns (List.replicate 30 0)

theorem reaches_late : traffic.Reaches ⟨.blank, [], []⟩ late := by
  have hfirst : (RhythmLobby.login bob "T1" 0).Ends .blank (.ok first)
      ((RhythmLobby.login bob "T1" 0).after 30 .blank) := Routine.ends_after rfl
  have hsecond : (RhythmLobby.login bob "T2" 1).Ends underway.world
      (.ok (second underway.world.hub))
      ((RhythmLobby.login bob "T2" 1).after 30 underway.world) :=
    Routine.ends_after rfl
  have htold : traffic.Reaches ⟨.blank, [], []⟩ told :=
    (Relation.ReflTransGen.single (.whole (i := login bob "T1" 0 (.ok first)) hfirst)).tail
      (.arrive ⟨bob, "T1", 0, List.mem_singleton.mpr rfl⟩)
  exact ((htold.trans (Traffic.reaches_turns _ _ _)).tail
    (.whole (i := login bob "T2" 1 (.ok (second underway.world.hub))) hsecond)).trans
    (Traffic.reaches_turns _ _ _)

end StatusCall

open StatusCall in
theorem status_records_follow_late :
    late.world.record (Key.status 2).text = (late.world.hub.directory.ofUser 2).map
      fun s => .status (late.world.hub.stateOf s).status := by
  have hquiet : late.Quiet := Scene.quiet_of_all (by decide +kernel)
  have hdirectory : World.blank.hub.directory = .empty := rfl
  have hrecords : ∀ user, World.blank.record (Key.status user).text = none := fun _ => rfl
  exact status_records_follow World.reliable_blank hdirectory hrecords reaches_late hquiet 2

end RhythmLobby
