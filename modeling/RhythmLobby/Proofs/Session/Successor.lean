import RhythmLobby.Proofs.Session.Handover

/-!
# The records of a successor

A session that replaces another has its status written after the older session has been taken out.
The deletion of the older session's records may be held back until then, and it deletes the status
of the user, whoever wrote it.

* `Handover.Late`                    a deletion reached the store after the write;
* `Handover.Guard`                   what the calls since then have left of the status;
* `successor_records_iff_not_late`   the records are right unless this has happened;
* `successor_status_lost`            it does happen.
-/

namespace RhythmLobby
open Cache

namespace Handover
open Token (registered deleteCall count_split count_concat)

variable {token : String} {user : Int32}

/-- the call that writes the status with which a session begins -/
def statusCall (user : Int32) : Call := (Update.status user .initial).call

theorem statusCall_ne_deleteCall (user : Int32) (token' : String) (user' : Int32) :
    statusCall user ≠ deleteCall token' user' := nofun

theorem statusCall_leaves (user : Int32) (r : Option Record) :
    (statusCall user).leaves (Key.status user).text r = some (.status .initial) :=
  (Update.leaves_status _ r user .initial).trans (if_pos rfl)

theorem deleteCall_leaves_status (token' : String) (user : Int32) (r : Option Record) :
    (deleteCall token' user).leaves (Key.status user).text r = none :=
  (Update.leaves_noSession _ r token' user).trans (if_pos (.inr rfl))

/-- records of the user were deleted after the status had been written -/
def Late (user : Int32) (calls : List Call) : Prop :=
  ∃ token, [statusCall user, deleteCall token user].Sublist calls

theorem Late.mem {calls : List Call} (h : Late user calls) : statusCall user ∈ calls := by
  obtain ⟨token', h⟩ := h
  exact h.subset (by simp)

theorem late_concat {calls : List Call} {c : Call} : Late user (calls ++ [c]) ↔
    Late user calls ∨ (statusCall user ∈ calls ∧ ∃ token, c = deleteCall token user) := by
  simp only [Late, pair_sublist_concat, exists_or, exists_and_left]

/-! ## What the calls have left -/

/-- Since the scene began, the calls `since` have reached the store.  The write of the status is one
of them, or some task is due to make it, once the session of the token has been entered; it is made
once at most. -/
structure Guard (token : String) (user : Int32) (earlier since : List Call) (w : World)
    (phases : List Phase) (past : List PresenceCall) : Prop where
  reliable : w.Reliable
  calls : w.calls = earlier ++ since
  once : phases.count .entering + phases.count .due + since.count (statusCall user) ≤ 1
  unused : (∀ profile line, PresenceCall.login profile token line ∉ past) →
    phases.count .entering + phases.count .due + since.count (statusCall user) = 0
  owed : registered token w.hub = true → .due ∈ phases ∨ statusCall user ∈ since
  kept : statusCall user ∈ since → ¬ Late user since →
    w.record (Key.status user).text = some (.status .initial)
  lost : Late user since → w.record (Key.status user).text = none

section Steps

variable {earlier since : List Call} {w : World} {before after : List Phase}
  {past : List PresenceCall}

theorem calls_update (hcalls : w.calls = earlier ++ since) (u : Update) :
    (w.update u).calls = earlier ++ (since ++ [u.call]) := by
  rw [← List.append_assoc, ← hcalls]
  exact w.calls_perform (.update u)

theorem guard_turn {h : Hub} {σ σ' : Phase}
    (hg : Guard token user earlier since w (before ++ σ :: after) past)
    (ht : Turn token w.hub σ h σ') :
    Guard token user earlier since { w with hub := h } (before ++ σ' :: after) past := by
  obtain ⟨hreliable, hcalls, honce, hunused, howed, hkept, hlost⟩ := hg
  cases ht with
  | same hsame =>
    exact ⟨hreliable, hcalls, honce, hunused, fun hr => howed (hsame hr), hkept, hlost⟩
  | refuse =>
    simp only [count_split, reduceCtorEq, if_true, if_false] at honce hunused
    refine ⟨hreliable, hcalls, ?_, fun hp => absurd (hunused hp) (by omega), fun hr => ?_, hkept,
      hlost⟩
    · simp only [count_split, reduceCtorEq, if_false]
      omega
    · refine (howed hr).imp_left fun hdue => ?_
      simpa using hdue
  | enter =>
    simp only [count_split, reduceCtorEq, if_true, if_false] at honce hunused
    refine ⟨hreliable, hcalls, ?_, fun hp => absurd (hunused hp) (by omega), fun _ => ?_, hkept,
      hlost⟩
    · simp only [count_split, reduceCtorEq, if_true, if_false]
      omega
    · exact .inl (by simp)

theorem guard_silent {e : Effect} {phases : List Phase}
    (hg : Guard token user earlier since w phases past) (hc : e.call? = none) :
    Guard token user earlier since (e.perform w) phases past := by
  obtain ⟨hreliable, hcalls, honce, hunused, howed, hkept, hlost⟩ := hg
  have hrecord : (e.perform w).record (Key.status user).text = w.record (Key.status user).text :=
    (World.record_perform hreliable e _).trans (e.leaves_of_call?_eq_none hc _ _)
  refine ⟨World.reliable_perform hreliable e, ?_, honce, hunused, ?_, ?_, ?_⟩
  · rw [World.calls_perform, hc, Option.toList_none, List.append_nil, hcalls]
  · rwa [Effect.perform_hub]
  · rwa [hrecord]
  · rwa [hrecord]

/-- a call other than the one that writes the status; what it leaves of the record is still open -/
theorem guard_call {u : Update} {phases : List Phase}
    (hg : Guard token user earlier since w phases past) (hne : u.call ≠ statusCall user)
    (hkept : statusCall user ∈ since → ¬ Late user (since ++ [u.call]) →
      (w.update u).record (Key.status user).text = some (.status .initial))
    (hlost : Late user (since ++ [u.call]) →
      (w.update u).record (Key.status user).text = none) :
    Guard token user earlier (since ++ [u.call]) (w.update u) phases past := by
  obtain ⟨hreliable, hcalls, honce, hunused, howed, -, -⟩ := hg
  have hcount : (since ++ [u.call]).count (statusCall user) = since.count (statusCall user) := by
    rw [count_concat, if_neg hne, Nat.add_zero]
  have hmem : statusCall user ∈ since ++ [u.call] ↔ statusCall user ∈ since := by
    rw [List.mem_append, List.mem_singleton]
    exact or_iff_left hne.symm
  refine ⟨World.reliable_perform hreliable (.update u), calls_update hcalls u, ?_, ?_, ?_, ?_,
    hlost⟩
  · rwa [hcount]
  · rwa [hcount]
  · rwa [World.update_hub, hmem]
  · rwa [hmem]

theorem guard_other {u : Update} {phases : List Phase}
    (hg : Guard token user earlier since w phases past)
    (hu : Slot.Untouched (Key.status user).text (.update u)) :
    Guard token user earlier (since ++ [u.call]) (w.update u) phases past := by
  have hstatus : u.call ≠ statusCall user := by
    intro hc
    have := hu none
    rw [Effect.leaves_of_call? (e := .update u) rfl, hc, statusCall_leaves] at this
    cases this
  have hdelete : ∀ token', u.call ≠ deleteCall token' user := by
    intro token' hc
    have := hu (some (.status .initial))
    rw [Effect.leaves_of_call? (e := .update u) rfl, hc, deleteCall_leaves_status] at this
    cases this
  have hlate : Late user (since ++ [u.call]) ↔ Late user since := by
    rw [late_concat]
    exact or_iff_left fun h => h.2.elim hdelete
  have hrecord : (w.update u).record (Key.status user).text = w.record (Key.status user).text :=
    (World.record_perform hg.reliable (.update u) _).trans (hu _)
  refine guard_call hg hstatus ?_ ?_
  · rw [hlate, hrecord]
    exact hg.kept
  · rw [hlate, hrecord]
    exact hg.lost

theorem guard_delete {phases : List Phase} (hg : Guard token user earlier since w phases past)
    (token' : String) :
    Guard token user earlier (since ++ [deleteCall token' user])
      (w.update (.noSession token' user)) phases past := by
  have hrecord : (w.update (.noSession token' user)).record (Key.status user).text = none :=
    (World.record_update hg.reliable _ _).trans (deleteCall_leaves_status token' user _)
  refine guard_call (u := .noSession token' user) hg
    (statusCall_ne_deleteCall user token' user).symm
    (fun hstatus hnot => ?_) fun _ => hrecord
  exact absurd (late_concat.mpr (.inr ⟨hstatus, token', rfl⟩)) hnot

/-- the status is written, which has not been written before -/
theorem guard_publish (hg : Guard token user earlier since w (before ++ .due :: after) past) :
    Guard token user earlier (since ++ [statusCall user]) (w.update (.status user .initial))
      (before ++ .idle :: after) past := by
  obtain ⟨hreliable, hcalls, honce, hunused, -, -, -⟩ := hg
  simp only [count_split, reduceCtorEq, if_true, if_false] at honce hunused
  have hnew : statusCall user ∉ since := by
    rw [← List.count_eq_zero]
    omega
  have hcount : (since ++ [statusCall user]).count (statusCall user) =
      since.count (statusCall user) + 1 := by
    rw [count_concat, if_pos rfl]
  have hlate : ¬ Late user (since ++ [statusCall user]) := by
    rw [late_concat]
    exact fun h => hnew (h.elim Late.mem And.left)
  have hrecord : (w.update (.status user .initial)).record (Key.status user).text =
      some (.status .initial) :=
    (World.record_update hreliable _ _).trans (statusCall_leaves user _)
  refine ⟨World.reliable_perform hreliable (.update _), calls_update hcalls _, ?_,
    fun hp => absurd (hunused hp) (by omega), fun _ => .inr (by simp), fun _ _ => hrecord,
    fun h => absurd h hlate⟩
  simp only [count_split, reduceCtorEq, if_false, hcount]
  omega

end Steps

/-- what every allowed step keeps -/
def Guarded (token : String) (user : Int32) (earlier : List Call) (w : World)
    (phases : List Phase) (past : List PresenceCall) : Prop :=
  ∃ since, Guard token user earlier since w phases past

theorem guarded_moves {base : Nat} {earlier : List Call} {w w' : World}
    {before after : List Phase} {σ σ' : Phase} {past : List PresenceCall}
    (hg : Guarded token user earlier w (before ++ σ :: after) past)
    (hm : (discipline base token user).Moves w σ w' σ') :
    Guarded token user earlier w' (before ++ σ' :: after) past := by
  obtain ⟨since, hg⟩ := hg
  cases hm with
  | turn ht => exact ⟨since, guard_turn hg ht.2.2⟩
  | @emit e _ he =>
    cases he with
    | delete => exact ⟨_, guard_delete hg _⟩
    | publish => exact ⟨_, guard_publish hg⟩
    | other hu =>
      cases e with
      | update u => exact ⟨_, guard_other hg hu⟩
      | _ => exact ⟨since, guard_silent hg rfl⟩

/-! ## All calls -/

/-- the user comes online with the token, and nobody else does -/
def Solo (token : String) (user : Int32) (i : PresenceCall) : Prop :=
  ∀ profile token' line, i = .login profile token' line → (profile.id = user ↔ token' = token)

section Arrivals

variable {earlier : List Call} {w : World} {phases : List Phase} {past : List PresenceCall}

theorem guarded_idle (hg : Guarded token user earlier w phases past) (i : PresenceCall) :
    Guarded token user earlier w (phases ++ [Phase.idle]) (past ++ [i]) := by
  obtain ⟨since, hreliable, hcalls, honce, hunused, howed, hkept, hlost⟩ := hg
  refine ⟨since, hreliable, hcalls, ?_, fun hp => ?_, fun hr => ?_, hkept, hlost⟩
  · simpa only [count_concat, reduceCtorEq, if_false, Nat.add_zero] using honce
  · simp only [count_concat, reduceCtorEq, if_false]
    exact hunused fun profile line h => hp profile line (List.mem_append_left _ h)
  · exact (howed hr).imp_left (List.mem_append_left _)

theorem guarded_entering (hg : Guarded token user earlier w phases past)
    (hp : ∀ profile line, PresenceCall.login profile token line ∉ past) (profile : Profile)
    (line : Nat) : Guarded token user earlier w (phases ++ [Phase.entering])
      (past ++ [.login profile token line]) := by
  obtain ⟨since, hreliable, hcalls, honce, hunused, howed, hkept, hlost⟩ := hg
  have hnone := hunused hp
  refine ⟨since, hreliable, hcalls, ?_, fun hp => ?_, fun hr => ?_, hkept, hlost⟩
  · simp only [count_concat, reduceCtorEq, if_true, if_false]
    omega
  · exact absurd (List.mem_append_right _ (List.mem_singleton_self _)) (hp profile line)
  · exact (howed hr).imp_left (List.mem_append_left _)

end Arrivals

theorem guards (base : Nat) (token : String) (user : Int32) (earlier : List Call) :
    (discipline base token user).Guards (PresenceCall.traffic.only (Solo token user))
      (Guarded token user earlier) where
  arrive {c phases i} _ hg _ hmay := by
    obtain ⟨hmay, hsolo⟩ := hmay
    cases i with
    | login profile token' line =>
      refine ⟨before token token', ?_, ?_⟩
      · exact Discipline.keeps_void (keeps_login line (hsolo profile token' line rfl) c.world.hub)
      · by_cases ht : token' = token
        · subst ht
          rw [before, if_pos rfl]
          exact guarded_entering hg (hmay profile token' line rfl) profile line
        · rw [before, if_neg ht]
          exact guarded_idle hg _
    | disconnect token' =>
      refine ⟨.idle, ?_, guarded_idle hg _⟩
      exact Discipline.keeps_mono (keeps_disconnect token' (Nat.zero_le _) .idle)
        fun _ _ _ hq => hq.2
  moves _ hg hm := guarded_moves hg hm
  whole _ _ hw := hw.1.elim

/-- nothing has been done about the session with the token yet -/
theorem tasksFit_begin {w : World} (hw : w.Reliable) (hc : w.hub.directory.Coherent)
    (hu : Token.Unused token w) (user : Int32) :
    (discipline w.hub.sessions.length token user).TasksFit (Guarded token user w.calls)
      (⟨w, [], []⟩ : Scene PresenceCall) := by
  have hnever : ¬ Late user [] := fun h => List.not_mem_nil h.mem
  refine ⟨⟨hc, Nat.le_refl _, fun k state hk hstate => ?_, fun s hs => ?_⟩, [], rfl, nofun, [], hw,
    (List.append_nil _).symm, Nat.zero_le 1, fun _ => rfl, fun hr => ?_, nofun,
    fun h => absurd h hnever⟩
  · rw [List.getElem?_eq_none hk] at hstate
    cases hstate
  · rw [hu.offline] at hs
    cases hs
  · have hr : (w.hub.directory.ofToken token).isSome = true := hr
    rw [hu.offline] at hr
    cases hr

theorem status_of_idle {base : Nat} {earlier : List Call} {w : World} {phases : List Phase}
    {past : List PresenceCall} (hs : Sound base token user w.hub)
    (hg : Guarded token user earlier w phases past) (hidle : ∀ σ ∈ phases, σ = .idle) {s : Session}
    (ho : w.hub.directory.ofToken token = some s) :
    (¬ Late user (w.calls.drop earlier.length) →
      w.record (Key.status user).text = some (.status (w.hub.stateOf s).status)) ∧
    (Late user (w.calls.drop earlier.length) → w.record (Key.status user).text = none) := by
  obtain ⟨since, -, hcalls, -, -, howed, hkept, hlost⟩ := hg
  obtain ⟨-, hbase, hlt⟩ := hs.owner s ho
  have hregistered : registered token w.hub = true := by rw [registered, ho]; rfl
  have hwritten : statusCall user ∈ since :=
    (howed hregistered).resolve_left fun hdue => by cases hidle _ hdue
  rw [hcalls, List.drop_left, hs.status hbase hlt]
  exact ⟨hkept hwritten, hlost⟩

end Handover

open Handover in
/-- A user comes online with a new token while other sessions come and go, one of the same user
among them.  Once everybody is done and the user is still online with the token, the token has its
record.  The status of the user has its own unless a deletion reached the store after the status
had been written; then it is gone. -/
theorem successor_records_iff_not_late {w : World} (hw : w.Reliable)
    (hd : w.hub.directory.Coherent) {token : String} (hu : Token.Unused token w)
    {c : Scene PresenceCall} (h : PresenceCall.traffic.Reaches ⟨w, [], []⟩ c) (hq : c.Quiet)
    {profile : Profile} {line : Nat} (hl : .login profile token line ∈ c.past)
    (hsolo : ∀ profile' token' line', .login profile' token' line' ∈ c.past →
      profile'.id = profile.id → token' = token)
    {s : Session} (hs : c.world.hub.directory.ofToken token = some s) :
    s.id = profile.id ∧
    c.world.record (Key.session token).text = some (.session s.id) ∧
    (c.world.record (Key.status s.id).text = some (.status (c.world.hub.stateOf s).status) ↔
      ¬ Late s.id (c.world.calls.drop w.calls.length)) ∧
    (Late s.id (c.world.calls.drop w.calls.length) →
      c.world.record (Key.status s.id).text = none) := by
  have hsame : ∀ i ∈ c.past, Solo token profile.id i := by
    intro _ hi profile' token' line' heq
    subst heq
    refine ⟨hsolo _ _ _ hi, ?_⟩
    intro heq
    subst heq
    rw [Token.login_unique h hi hl]
  have howner : ∀ i ∈ c.past, Token.Owner token profile.id i := by
    intro _ hi profile' line' heq
    subst heq
    exact (hsame _ hi _ _ _ rfl).mpr rfl
  have htokens := (Token.guards token profile.id).reaches (h.only howner)
    (Token.tasksFit_unused profile.id hw hd hu)
  obtain ⟨tokens, htokensIdle, htokensGuard⟩ := htokens.rest hq
  have hsession := (Token.record_of_idle htokens.1 htokensGuard htokensIdle).1 s hs
  have hstatuses := (guards w.hub.sessions.length token profile.id w.calls).reaches (h.only hsame)
    (tasksFit_begin hw hd hu profile.id)
  obtain ⟨phases, hidle, hguard⟩ := hstatuses.rest hq
  have hid : s.id = profile.id := (hstatuses.1.owner s hs).1
  obtain ⟨hkept, hlost⟩ := status_of_idle hstatuses.1 hguard hidle hs
  rw [← hid] at hkept hlost
  refine ⟨hid, hsession, ⟨fun hrecord hlate => ?_, hkept⟩, hlost⟩
  rw [hlost hlate] at hrecord
  cases hrecord

/-! ## It does happen -/

namespace Handover
open Token (ada)

/-- a user comes online -/
def first : Scene PresenceCall :=
  (PresenceCall.traffic.call ⟨.blank, [], []⟩ (.login ada "T1" 0)).turns (List.replicate 30 0)

theorem reaches_first : PresenceCall.traffic.Reaches ⟨.blank, [], []⟩ first := by
  refine .trans (.single (.arrive ?_)) (Traffic.reaches_turns _ _ _)
  exact fun _ _ _ _ _ _ => List.not_mem_nil

/-- the world in which the user is online -/
def online : World := first.world

theorem unused_online : online.Reliable ∧ online.hub.directory.Coherent ∧
    Token.Unused "T2" online := by
  refine (Token.unused_of_empty "T2" rfl rfl).reaches (fun _ => rfl) Directory.coherent_empty
    reaches_first fun profile line hl => ?_
  have := List.mem_singleton.mp (show _ ∈ [PresenceCall.login ada "T1" 0] from hl)
  simp at this

/-- the session is torn down while the user comes online anew -/
def replaced : Scene PresenceCall :=
  PresenceCall.traffic.call (PresenceCall.traffic.call ⟨online, [], []⟩ (.disconnect "T1"))
    (.login ada "T2" 1)

theorem reaches_replaced : PresenceCall.traffic.Reaches ⟨online, [], []⟩ replaced := by
  refine .tail (.single (.arrive ?_)) (.arrive ?_)
  · exact nofun
  · intro _ _ _ hfalse profile line h
    cases hfalse
    have := List.mem_singleton.mp h
    cases this

/-- The older session is taken out, and the deletion of its records is held back at the store
until the login has ended. -/
def lateTeardown : Scene PresenceCall :=
  replaced.turns ([0, 0, 0] ++ List.replicate 30 1 ++ List.replicate 30 0)

/-- the login after the teardown -/
def promptTeardown : Scene PresenceCall :=
  replaced.turns (List.replicate 30 0 ++ List.replicate 30 1)

theorem reaches_lateTeardown : PresenceCall.traffic.Reaches ⟨online, [], []⟩ lateTeardown :=
  reaches_replaced.trans (Traffic.reaches_turns _ _ _)

theorem reaches_promptTeardown : PresenceCall.traffic.Reaches ⟨online, [], []⟩ promptTeardown :=
  reaches_replaced.trans (Traffic.reaches_turns _ _ _)

end Handover

open Handover in
/-- a teardown may delete the status of the session that replaced the one torn down -/
theorem successor_status_lost :
    ¬ ∀ c : Scene PresenceCall, PresenceCall.traffic.Reaches ⟨online, [], []⟩ c →
      c.past = [.disconnect "T1", .login Token.ada "T2" 1] → c.Quiet →
      ∀ s, c.world.hub.directory.ofToken "T2" = some s →
        c.world.record (Key.session "T2").text = some (.session s.id) ∧
        c.world.record (Key.status s.id).text = some (.status (c.world.hub.stateOf s).status) := by
  intro h
  have hquiet : lateTeardown.Quiet := Scene.quiet_of_all (by decide +kernel)
  have hsome : (lateTeardown.world.hub.directory.ofToken "T2").map Session.id = some 1 := by
    decide +kernel
  have hnone : (lateTeardown.world.record (Key.status 1).text).isSome = false := by
    decide +kernel
  obtain ⟨s, hs, hid⟩ := Option.map_eq_some_iff.mp hsome
  have hpast : lateTeardown.past = [.disconnect "T1", .login Token.ada "T2" 1] :=
    replaced.past_turns _
  have hrecord := (h lateTeardown reaches_lateTeardown hpast hquiet s hs).2
  rw [hid] at hrecord
  rw [hrecord] at hnone
  cases hnone

open Handover in
theorem successor_records_iff_not_late_promptTeardown :
    ∃ s, promptTeardown.world.hub.directory.ofToken "T2" = some s ∧
    s.id = 1 ∧
    promptTeardown.world.record (Key.session "T2").text = some (.session s.id) ∧
    (promptTeardown.world.record (Key.status s.id).text =
        some (.status (promptTeardown.world.hub.stateOf s).status) ↔
      ¬ Late s.id (promptTeardown.world.calls.drop online.calls.length)) ∧
    (Late s.id (promptTeardown.world.calls.drop online.calls.length) →
      promptTeardown.world.record (Key.status s.id).text = none) := by
  have hquiet : promptTeardown.Quiet := Scene.quiet_of_all (by decide +kernel)
  have hsome : (promptTeardown.world.hub.directory.ofToken "T2").isSome = true := by
    decide +kernel
  have hpast : promptTeardown.past = [.disconnect "T1", .login Token.ada "T2" 1] :=
    replaced.past_turns _
  have hlogin : .login Token.ada "T2" 1 ∈ promptTeardown.past := by
    rw [hpast]
    exact List.mem_cons_of_mem _ (List.mem_singleton_self _)
  obtain ⟨s, hs⟩ := Option.isSome_iff_exists.mp hsome
  obtain ⟨hw, hd, hu⟩ := unused_online
  refine ⟨s, hs, successor_records_iff_not_late hw hd hu reaches_promptTeardown hquiet hlogin ?_ hs⟩
  intro profile' token' line' hl _
  rw [hpast] at hl
  rcases List.mem_cons.mp hl with hl | hl
  · cases hl
  · cases List.mem_singleton.mp hl
    rfl

end RhythmLobby
