import Mathlib.Data.List.Basic
import RhythmLobby.Proofs.Session.Tokens

/-!
# Records of tokens

The record of a token is written once, after its session has been entered, and deleted once, after
the session has been taken out.  Nobody looks at memory again after a write, so when the deletion
reaches the store first, the record stays although nobody is online with the token.

* `TokenBooks`                        entries, writes and deletions of a token balance;
* `Overtaken`                         the deletion reached the store before the write;
* `session_record_iff_not_overtaken`  the record is right unless this has happened;
* `session_record_leaks`              it does happen.
-/

namespace RhythmLobby
open Cache

theorem pair_sublist_concat {a b x : Call} {l : List Call} :
    [a, b].Sublist (l ++ [x]) ↔ [a, b].Sublist l ∨ (a ∈ l ∧ x = b) := by
  constructor
  · intro h
    obtain ⟨l₁, l₂, h₁₂, h₁, h₂⟩ := List.sublist_append_iff.mp h
    rcases List.sublist_singleton.mp h₂ with rfl | rfl
    · rw [List.append_nil] at h₁₂
      exact .inl (h₁₂ ▸ h₁)
    · have hsplit : [a] ++ [b] = l₁ ++ [x] := h₁₂
      obtain ⟨rfl, hb⟩ := List.append_inj' hsplit rfl
      exact .inr ⟨List.singleton_sublist.mp h₁, (List.cons.inj hb).1.symm⟩
  · rintro (h | ⟨ha, rfl⟩)
    · exact h.trans (List.sublist_append_left l [x])
    · exact List.Sublist.append (List.singleton_sublist.mpr ha) (List.Sublist.refl [x])

namespace Token

variable {token : String} {user : Int32}

/-- the call that writes the record of a token -/
def setCall (token : String) (user : Int32) : Call := (Update.session token user).call

/-- the call that deletes it -/
def deleteCall (token : String) (user : Int32) : Call := (Update.noSession token user).call

theorem setCall_ne_deleteCall (token token' : String) (user user' : Int32) :
    setCall token user ≠ deleteCall token' user' := nofun

theorem setCall_leaves (token : String) (user : Int32) (r : Option Record) :
    (setCall token user).leaves (Key.session token).text r = some (.session user) :=
  (Update.leaves_session _ r token user).trans (if_pos rfl)

theorem deleteCall_leaves (token : String) (user : Int32) (r : Option Record) :
    (deleteCall token user).leaves (Key.session token).text r = none :=
  (Update.leaves_noSession _ r token user).trans (if_pos (.inl rfl))

theorem setCall_injective {token : String} {user user' : Int32}
    (h : setCall token user = setCall token user') : user = user' := by
  have hleaves := setCall_leaves token user none
  rw [h, setCall_leaves] at hleaves
  exact (toInt_wholeText_inj (Record.text.inj (Option.some.inj hleaves))).symm

/-! ## Books -/

/-- Of each token at most one session is entered, and its record is written once.  Every session
taken out was entered, and its record is deleted once. -/
structure TokenBooks (token : String) (user : Int32) (registered : Bool) (calls : List Call)
    (phases : List TokenPhase) (past : List PresenceCall) : Prop where
  once : phases.count .entering + phases.count .publishing + calls.count (setCall token user) ≤ 1
  unused : (∀ profile line, PresenceCall.login profile token line ∉ past) →
    phases.count .entering + phases.count .publishing + calls.count (setCall token user) = 0
  balance : registered.toNat + phases.count .deleting + calls.count (deleteCall token user) =
    phases.count .publishing + calls.count (setCall token user)
  only : ∀ v, setCall token v ∈ calls → v = user

/-- whether somebody is online with a token -/
def registered (token : String) (h : Hub) : Bool := (h.directory.ofToken token).isSome

theorem count_split {α : Type} [DecidableEq α] (before after : List α) (σ τ : α) :
    (before ++ σ :: after).count τ = (before ++ after).count τ + if σ = τ then 1 else 0 := by
  simp only [List.count_append, List.count_cons, beq_iff_eq]
  omega

section Steps

variable {calls : List Call} {before after : List TokenPhase} {past : List PresenceCall}

theorem TokenBooks.turn {h h' : Hub} {σ σ' : TokenPhase}
    (hb : TokenBooks token user (registered token h) calls (before ++ σ :: after) past)
    (ht : TokenTurn token h σ h' σ') :
    TokenBooks token user (registered token h') calls (before ++ σ' :: after) past := by
  obtain ⟨honce, hunused, hbalance, honly⟩ := hb
  cases ht with
  | same hsame =>
    have hsame : registered token h' = registered token h := hsame
    rw [hsame]
    exact ⟨honce, hunused, hbalance, honly⟩
  | refuse =>
    simp only [count_split, reduceCtorEq, if_true, if_false] at honce hunused hbalance
    refine ⟨?_, fun hp => absurd (hunused hp) (by omega), ?_, honly⟩
    · simp only [count_split, reduceCtorEq, if_false]
      omega
    · simpa only [count_split, reduceCtorEq, if_false] using hbalance
  | enter hnone hsome =>
    have hbefore : registered token h = false := by rw [registered, hnone]; rfl
    have hafter : registered token h' = true := hsome
    rw [hbefore] at hbalance
    simp only [count_split, reduceCtorEq, if_true, if_false, Bool.toNat_false]
      at honce hunused hbalance
    rw [hafter]
    refine ⟨?_, fun hp => absurd (hunused hp) (by omega), ?_, honly⟩
    · simp only [count_split, reduceCtorEq, if_true, if_false]
      omega
    · simp only [count_split, reduceCtorEq, if_true, if_false, Bool.toNat_true]
      omega
  | remove hsome hnone =>
    have hbefore : registered token h = true := hsome
    have hafter : registered token h' = false := by rw [registered, hnone]; rfl
    rw [hbefore] at hbalance
    simp only [count_split, reduceCtorEq, if_false, Bool.toNat_true] at honce hunused hbalance
    rw [hafter]
    refine ⟨?_, fun hp => ?_, ?_, honly⟩
    · simpa only [count_split, reduceCtorEq, if_false] using honce
    · simpa only [count_split, reduceCtorEq, if_false] using hunused hp
    · simp only [count_split, reduceCtorEq, if_true, if_false, Bool.toNat_false]
      omega

theorem TokenBooks.other {reg : Bool} {phases : List TokenPhase} {c : Call}
    (hb : TokenBooks token user reg calls phases past) (hset : ∀ v, c ≠ setCall token v)
    (hdelete : c ≠ deleteCall token user) :
    TokenBooks token user reg (calls ++ [c]) phases past := by
  obtain ⟨honce, hunused, hbalance, honly⟩ := hb
  have hsets : (calls ++ [c]).count (setCall token user) = calls.count (setCall token user) := by
    rw [List.count_append, List.count_singleton, beq_eq_false_iff_ne.mpr (hset user)]
    rfl
  have hdeletes : (calls ++ [c]).count (deleteCall token user) =
      calls.count (deleteCall token user) := by
    rw [List.count_append, List.count_singleton, beq_eq_false_iff_ne.mpr hdelete]
    rfl
  refine ⟨by rwa [hsets], fun hp => ?_, by rwa [hsets, hdeletes], fun v hv => ?_⟩
  · rw [hsets]
    exact hunused hp
  · rcases List.mem_append.mp hv with hv | hv
    · exact honly v hv
    · exact absurd (List.mem_singleton.mp hv).symm (hset v)

theorem TokenBooks.publish {reg : Bool}
    (hb : TokenBooks token user reg calls (before ++ .publishing :: after) past) :
    setCall token user ∉ calls ∧
      TokenBooks token user reg (calls ++ [setCall token user]) (before ++ .idle :: after)
        past := by
  obtain ⟨honce, hunused, hbalance, honly⟩ := hb
  simp only [count_split, reduceCtorEq, if_true, if_false] at honce hunused hbalance
  have hnew : setCall token user ∉ calls := by
    rw [← List.count_eq_zero]
    omega
  have hsets : (calls ++ [setCall token user]).count (setCall token user) =
      calls.count (setCall token user) + 1 := by
    rw [List.count_append, List.count_singleton_self]
  have hdeletes : (calls ++ [setCall token user]).count (deleteCall token user) =
      calls.count (deleteCall token user) := by
    rw [List.count_append, List.count_singleton,
      beq_eq_false_iff_ne.mpr (setCall_ne_deleteCall token token user user)]
    rfl
  refine ⟨hnew, ?_, fun hp => absurd (hunused hp) (by omega), ?_, fun v hv => ?_⟩
  · simp only [count_split, reduceCtorEq, if_false, hsets]
    omega
  · simp only [count_split, reduceCtorEq, if_false, hsets, hdeletes]
    omega
  · rcases List.mem_append.mp hv with hv | hv
    · exact honly v hv
    · exact setCall_injective (List.mem_singleton.mp hv)

theorem TokenBooks.delete {reg : Bool}
    (hb : TokenBooks token user reg calls (before ++ .deleting :: after) past) :
    deleteCall token user ∉ calls ∧
      TokenBooks token user reg (calls ++ [deleteCall token user]) (before ++ .idle :: after)
        past := by
  obtain ⟨honce, hunused, hbalance, honly⟩ := hb
  simp only [count_split, reduceCtorEq, if_true, if_false] at honce hunused hbalance
  have hnew : deleteCall token user ∉ calls := by
    rw [← List.count_eq_zero]
    omega
  have hsets : (calls ++ [deleteCall token user]).count (setCall token user) =
      calls.count (setCall token user) := by
    rw [List.count_append, List.count_singleton,
      beq_eq_false_iff_ne.mpr (setCall_ne_deleteCall token token user user).symm]
    rfl
  have hdeletes : (calls ++ [deleteCall token user]).count (deleteCall token user) =
      calls.count (deleteCall token user) + 1 := by
    rw [List.count_append, List.count_singleton_self]
  refine ⟨hnew, ?_, fun hp => ?_, ?_, fun v hv => ?_⟩
  · simpa only [count_split, reduceCtorEq, if_false, hsets] using honce
  · simpa only [count_split, reduceCtorEq, if_false, hsets] using hunused hp
  · simp only [count_split, reduceCtorEq, if_false, hsets, hdeletes]
    omega
  · rcases List.mem_append.mp hv with hv | hv
    · exact honly v hv
    · exact absurd (List.mem_singleton.mp hv) (setCall_ne_deleteCall token token v user)

end Steps

/-! ## The record -/

/-- the record of the token was deleted before it was written -/
def Overtaken (token : String) (user : Int32) (calls : List Call) : Prop :=
  [deleteCall token user, setCall token user].Sublist calls

theorem Overtaken.mem {calls : List Call} (h : Overtaken token user calls) :
    deleteCall token user ∈ calls ∧ setCall token user ∈ calls :=
  ⟨h.subset (by simp), h.subset (by simp)⟩

/-- the books balance, and the record is what the last call on it has left -/
structure TokenGuard (token : String) (user : Int32) (w : World) (phases : List TokenPhase)
    (past : List PresenceCall) : Prop where
  reliable : w.Reliable
  books : TokenBooks token user (registered token w.hub) w.calls phases past
  absent : setCall token user ∉ w.calls → w.record (Key.session token).text = none
  written : setCall token user ∈ w.calls →
    (deleteCall token user ∈ w.calls → Overtaken token user w.calls) →
      w.record (Key.session token).text = some (.session user)
  deleted : deleteCall token user ∈ w.calls → ¬ Overtaken token user w.calls →
    w.record (Key.session token).text = none

theorem guard_turn {w : World} {h : Hub} {before after : List TokenPhase} {σ σ' : TokenPhase}
    {past : List PresenceCall} (hg : TokenGuard token user w (before ++ σ :: after) past)
    (ht : TokenTurn token w.hub σ h σ') :
    TokenGuard token user { w with hub := h } (before ++ σ' :: after) past :=
  ⟨hg.reliable, hg.books.turn ht, hg.absent, hg.written, hg.deleted⟩

theorem guard_other {w : World} {e : Effect} {phases : List TokenPhase}
    {past : List PresenceCall} (hg : TokenGuard token user w phases past)
    (hu : Slot.Untouched (Key.session token).text e) :
    TokenGuard token user (e.perform w) phases past := by
  have hreg : registered token (e.perform w).hub = registered token w.hub := by
    rw [Effect.perform_hub]
  have hrecord := World.record_perform hg.reliable e (Key.session token).text
  rw [hu] at hrecord
  have hcalls := w.calls_perform e
  obtain ⟨hreliable, hbooks, habsent, hwritten, hdeleted⟩ := hg
  cases hc : e.call? with
  | none =>
    rw [hc, Option.toList_none, List.append_nil] at hcalls
    refine ⟨World.reliable_perform hreliable e, ?_, ?_, ?_, ?_⟩ <;> rw [hcalls]
    · rwa [hreg]
    all_goals rwa [hrecord]
  | some c =>
    have hset : ∀ v, c ≠ setCall token v := by
      intro v heq
      subst heq
      have := hu none
      rw [Effect.leaves_of_call? hc, setCall_leaves] at this
      cases this
    have hdelete : c ≠ deleteCall token user := by
      intro heq
      subst heq
      have := hu (some (.session user))
      rw [Effect.leaves_of_call? hc, deleteCall_leaves] at this
      cases this
    rw [hc, Option.toList_some] at hcalls
    have hmem : ∀ x, x ≠ c → (x ∈ (e.perform w).calls ↔ x ∈ w.calls) := by
      intro x hx
      rw [hcalls, List.mem_append, List.mem_singleton]
      exact or_iff_left hx
    have hover : Overtaken token user (e.perform w).calls ↔ Overtaken token user w.calls := by
      rw [hcalls, Overtaken, pair_sublist_concat]
      exact or_iff_left fun h => hset user h.2
    have hs := hmem _ (hset user).symm
    have hd := hmem _ hdelete.symm
    refine ⟨World.reliable_perform hreliable e, ?_, ?_, ?_, ?_⟩
    · rw [hcalls, hreg]
      exact hbooks.other hset hdelete
    · rwa [hs, hrecord]
    · rwa [hs, hd, hover, hrecord]
    · rwa [hd, hover, hrecord]

theorem guard_publish {w : World} {before after : List TokenPhase} {past : List PresenceCall}
    (hg : TokenGuard token user w (before ++ .publishing :: after) past) :
    TokenGuard token user (w.update (.session token user)) (before ++ .idle :: after) past := by
  have hreg : registered token (w.update (.session token user)).hub = registered token w.hub := by
    rw [World.update_hub]
  have hcalls : (w.update (.session token user)).calls = w.calls ++ [setCall token user] :=
    w.calls_perform (.update (.session token user))
  have hrecord : (w.update (.session token user)).record (Key.session token).text =
      some (.session user) :=
    (World.record_update hg.reliable _ _).trans (setCall_leaves token user _)
  obtain ⟨hnew, hbooks⟩ := hg.books.publish
  refine ⟨World.reliable_perform hg.reliable (.update _), ?_, ?_, ?_, ?_⟩
  · rwa [hreg, hcalls]
  · rw [hcalls]
    exact fun h => absurd (List.mem_append_right _ (List.mem_singleton_self _)) h
  · exact fun _ _ => hrecord
  · rw [hcalls, Overtaken, pair_sublist_concat]
    intro hd hover
    rcases List.mem_append.mp hd with hd | hd
    · exact absurd (.inr ⟨hd, rfl⟩) hover
    · exact absurd (List.mem_singleton.mp hd).symm (setCall_ne_deleteCall token token user user)

theorem guard_delete {w : World} {before after : List TokenPhase} {past : List PresenceCall}
    (hg : TokenGuard token user w (before ++ .deleting :: after) past) :
    TokenGuard token user (w.update (.noSession token user)) (before ++ .idle :: after) past := by
  have hreg : registered token (w.update (.noSession token user)).hub = registered token w.hub := by
    rw [World.update_hub]
  have hcalls : (w.update (.noSession token user)).calls = w.calls ++ [deleteCall token user] :=
    w.calls_perform (.update (.noSession token user))
  have hrecord : (w.update (.noSession token user)).record (Key.session token).text = none :=
    (World.record_update hg.reliable _ _).trans (deleteCall_leaves token user _)
  obtain ⟨hnew, hbooks⟩ := hg.books.delete
  refine ⟨World.reliable_perform hg.reliable (.update _), ?_, fun _ => hrecord, ?_,
    fun _ _ => hrecord⟩
  · rwa [hreg, hcalls]
  · -- the deletion has reached the store just now, and nothing has been overtaken
    rw [hcalls, Overtaken, pair_sublist_concat]
    intro _ hover
    rcases hover (List.mem_append_right _ (List.mem_singleton_self _)) with hover | ⟨hd, -⟩
    · exact absurd (Overtaken.mem hover).1 hnew
    · exact absurd hd hnew

theorem guard_moves {w w' : World} {before after : List TokenPhase} {σ σ' : TokenPhase}
    {past : List PresenceCall} (hg : TokenGuard token user w (before ++ σ :: after) past)
    (hm : (tokenDiscipline token user).Moves w σ w' σ') :
    TokenGuard token user w' (before ++ σ' :: after) past := by
  cases hm with
  | turn ht => exact guard_turn hg ht.2
  | emit he =>
    cases he with
    | other hu => exact guard_other hg hu
    | publish => exact guard_publish hg
    | delete => exact guard_delete hg

/-! ## All calls -/

section Arrivals

variable {w : World} {phases : List TokenPhase} {past : List PresenceCall}

theorem count_concat {α : Type} [DecidableEq α] (phases : List α) (σ τ : α) :
    (phases ++ [σ]).count τ = phases.count τ + if σ = τ then 1 else 0 := by
  rw [count_split, List.append_nil]

theorem guard_idle (hg : TokenGuard token user w phases past) (i : PresenceCall) :
    TokenGuard token user w (phases ++ [TokenPhase.idle]) (past ++ [i]) := by
  obtain ⟨hreliable, ⟨honce, hunused, hbalance, honly⟩, habsent, hwritten, hdeleted⟩ := hg
  refine ⟨hreliable, ⟨?_, fun hp => ?_, ?_, honly⟩, habsent, hwritten, hdeleted⟩
  · simpa only [count_concat, reduceCtorEq, if_false, Nat.add_zero] using honce
  · simp only [count_concat, reduceCtorEq, if_false]
    exact hunused fun profile line h => hp profile line (List.mem_append_left _ h)
  · simpa only [count_concat, reduceCtorEq, if_false, Nat.add_zero] using hbalance

theorem guard_entering (hg : TokenGuard token user w phases past)
    (hp : ∀ profile line, PresenceCall.login profile token line ∉ past) (profile : Profile)
    (line : Nat) : TokenGuard token user w (phases ++ [TokenPhase.entering])
      (past ++ [.login profile token line]) := by
  obtain ⟨hreliable, ⟨honce, hunused, hbalance, honly⟩, habsent, hwritten, hdeleted⟩ := hg
  have hnone := hunused hp
  refine ⟨hreliable, ⟨?_, fun hp => ?_, ?_, honly⟩, habsent, hwritten, hdeleted⟩
  · simp only [count_concat, reduceCtorEq, if_true, if_false]
    omega
  · exact absurd (List.mem_append_right _ (List.mem_singleton_self _)) (hp profile line)
  · simpa only [count_concat, reduceCtorEq, if_false, Nat.add_zero] using hbalance

end Arrivals

/-- who comes online with the token is the user -/
def Owner (token : String) (user : Int32) (i : PresenceCall) : Prop :=
  ∀ profile line, i = .login profile token line → profile.id = user

theorem guards (token : String) (user : Int32) :
    (tokenDiscipline token user).Guards (PresenceCall.traffic.only (Owner token user))
      (TokenGuard token user) where
  arrive {c phases i} _ hg _ hmay := by
    obtain ⟨hmay, howner⟩ := hmay
    cases i with
    | login profile token' line =>
      refine ⟨TokenPhase.before token token', ?_, ?_⟩
      · refine Discipline.keeps_void (TokenPhase.keeps_login line ?_ c.world.hub)
        intro heq
        subst heq
        exact howner profile line rfl
      · by_cases ht : token' = token
        · subst ht
          rw [TokenPhase.before, if_pos rfl]
          exact guard_entering hg (hmay profile token' line rfl) profile line
        · rw [TokenPhase.before, if_neg ht]
          exact guard_idle hg _
    | disconnect token' =>
      exact ⟨.idle, TokenPhase.keeps_disconnect (fun _ => rfl) c.world.hub, guard_idle hg _⟩
  moves _ hg hm := guard_moves hg hm
  whole _ _ hw := hw.1.elim

theorem login_unique {w : World} {c : Scene PresenceCall}
    (h : PresenceCall.traffic.Reaches ⟨w, [], []⟩ c) {profile profile' : Profile}
    {token : String} {line line' : Nat} (hl : .login profile token line ∈ c.past)
    (hl' : .login profile' token line' ∈ c.past) : profile = profile' := by
  induction h with
  | refl => exact absurd hl List.not_mem_nil
  | tail _ hn ih =>
    cases hn with
    | arrive hmay =>
      rcases List.mem_append.mp hl with hl | hl <;> rcases List.mem_append.mp hl' with hl' | hl'
      · exact ih hl hl'
      · exact absurd hl (hmay _ _ _ (List.mem_singleton.mp hl').symm _ _)
      · exact absurd hl' (hmay _ _ _ (List.mem_singleton.mp hl).symm _ _)
      · have := (List.mem_singleton.mp hl).trans (List.mem_singleton.mp hl').symm
        cases this
        rfl
    | step _ => exact ih hl hl'
    | whole hw => exact hw.elim

end Token

namespace Token

variable {token : String} {user : Int32} {w : World}

/-- nobody has come online with the token so far -/
structure Unused (token : String) (w : World) : Prop where
  offline : w.hub.directory.ofToken token = none
  record : w.record (Key.session token).text = none
  written : ∀ user, setCall token user ∉ w.calls
  deleted : ∀ user, deleteCall token user ∉ w.calls

theorem guard_unused (user : Int32) (hr : w.Reliable) (hu : Unused token w) :
    TokenGuard token user w [] [] := by
  have hreg : registered token w.hub = false := by rw [registered, hu.offline]; rfl
  have hsets : w.calls.count (setCall token user) = 0 := List.count_eq_zero.mpr (hu.written user)
  have hdeletes : w.calls.count (deleteCall token user) = 0 :=
    List.count_eq_zero.mpr (hu.deleted user)
  refine ⟨hr, ⟨?_, fun _ => ?_, ?_, ?_⟩, fun _ => hu.record, ?_, fun _ _ => hu.record⟩
  · rw [hsets]
    exact Nat.zero_le 1
  · rw [hsets]
    rfl
  · rw [hreg, hsets, hdeletes]
    rfl
  · exact fun v hv => absurd hv (hu.written v)
  · exact fun hs => absurd hs (hu.written user)

theorem unused_of_empty (token : String) (hc : w.cache = .empty) (hd : w.hub.directory = .empty) :
    Unused token w := by
  have hcalls : w.calls = [] := by rw [World.calls, hc]; rfl
  refine ⟨by rw [hd]; rfl, ?_, fun v => ?_, fun v => ?_⟩
  · rw [World.record, hc]
    rfl
  all_goals
    rw [hcalls]
    exact List.not_mem_nil

theorem guard_begin (token : String) (user : Int32) (hc : w.cache = .empty)
    (hd : w.hub.directory = .empty) : TokenGuard token user w [] [] :=
  guard_unused user (fun n => by rw [hc]; rfl) (unused_of_empty token hc hd)

theorem tasksFit_unused (user : Int32) (hr : w.Reliable) (hd : w.hub.directory.Coherent)
    (hu : Unused token w) : (tokenDiscipline token user).TasksFit (TokenGuard token user)
      (⟨w, [], []⟩ : Scene PresenceCall) := by
  refine ⟨⟨hd, fun s hs => ?_⟩, [], rfl, nofun, guard_unused user hr hu⟩
  rw [hu.offline] at hs
  cases hs

/-- a token stays unused until somebody comes online with it -/
theorem Unused.reaches (hu : Unused token w) (hr : w.Reliable) (hd : w.hub.directory.Coherent)
    {c : Scene PresenceCall} (h : PresenceCall.traffic.Reaches ⟨w, [], []⟩ c)
    (hp : ∀ profile line, PresenceCall.login profile token line ∉ c.past) :
    c.world.Reliable ∧ c.world.hub.directory.Coherent ∧ Unused token c.world := by
  have htasksFit : ∀ user, (tokenDiscipline token user).TasksFit (TokenGuard token user) c := by
    refine fun user => (guards token user).reaches (h.only fun i hi profile line hil => ?_)
      (tasksFit_unused user hr hd hu)
    exact absurd (hil ▸ hi) (hp profile line)
  have hbooks : ∀ user, ∃ phases, TokenGuard token user c.world phases c.past := fun user =>
    let ⟨_, _, _, _, hg⟩ := htasksFit user
    ⟨_, hg⟩
  -- no write, so the books leave no room for a session or a deletion
  have hnone : ∀ user, registered token c.world.hub = false ∧
      setCall token user ∉ c.world.calls ∧ deleteCall token user ∉ c.world.calls := by
    intro user
    obtain ⟨phases, hg⟩ := hbooks user
    have hunused := hg.books.unused hp
    have hbalance := hg.books.balance
    refine ⟨?_, List.count_eq_zero.mp (by omega), List.count_eq_zero.mp (by omega)⟩
    cases hreg : registered token c.world.hub with
    | false => rfl
    | true =>
      rw [hreg, Bool.toNat_true] at hbalance
      omega
  obtain ⟨phases, hg⟩ := hbooks 0
  have hoffline := Option.not_isSome_iff_eq_none.mp (Bool.eq_false_iff.mp (hnone 0).1)
  exact ⟨hg.reliable, (htasksFit 0).1.1, hoffline, hg.absent (hnone 0).2.1,
    fun user => (hnone user).2.1, fun user => (hnone user).2.2⟩

theorem record_of_idle {phases : List TokenPhase} {past : List PresenceCall}
    (hs : (tokenDiscipline token user).sound w.hub) (hg : TokenGuard token user w phases past)
    (hidle : ∀ σ ∈ phases, σ = .idle) :
    (∀ s, w.hub.directory.ofToken token = some s →
      w.record (Key.session token).text = some (.session s.id)) ∧
    (w.record (Key.session token).text =
        (w.hub.directory.ofToken token).map (fun s => .session s.id) ↔
      ∀ v, ¬ Overtaken token v w.calls) := by
  have hcount : ∀ σ : TokenPhase, σ ≠ .idle → phases.count σ = 0 :=
    fun σ hσ => List.count_eq_zero.mpr fun h => hσ (hidle σ h)
  obtain ⟨-, ⟨honce, -, hbalance, honly⟩, habsent, hwritten, hdeleted⟩ := hg
  have hpublishing : phases.count .publishing = 0 := hcount _ (by simp)
  have hdeleting : phases.count .deleting = 0 := hcount _ (by simp)
  have hentering : phases.count .entering = 0 := hcount _ (by simp)
  rw [hpublishing, hdeleting, Nat.zero_add, Nat.add_zero] at hbalance
  rw [hpublishing, hentering, Nat.zero_add] at honce
  have hover : ∀ v, Overtaken token v w.calls → v = user := fun v h => honly v h.mem.2
  cases ho : w.hub.directory.ofToken token with
  | some s =>
    have hreg : registered token w.hub = true := by rw [registered, ho]; rfl
    rw [hreg, Bool.toNat_true] at hbalance
    have hset : setCall token user ∈ w.calls := List.count_pos_iff.mp (by omega)
    have hdelete : deleteCall token user ∉ w.calls := List.count_eq_zero.mp (by omega)
    have hrecord := hwritten hset fun h => absurd h hdelete
    have hid : s.id = user := hs.2 s ho
    refine ⟨fun s' hs' => ?_, fun _ v hv => ?_, fun _ => ?_⟩
    · cases hs'
      rw [hrecord, hid]
    · cases hover v hv
      exact hdelete hv.mem.1
    · rw [hrecord, Option.map_some, hid]
  | none =>
    have hreg : registered token w.hub = false := by rw [registered, ho]; rfl
    rw [hreg, Bool.toNat_false, Nat.zero_add] at hbalance
    refine ⟨nofun, fun hnone v hv => ?_, fun hnot => ?_⟩
    · cases hover v hv
      rw [hwritten hv.mem.2 fun _ => hv] at hnone
      cases hnone
    · by_cases hset : setCall token user ∈ w.calls
      · have hdelete : deleteCall token user ∈ w.calls := by
          rw [← List.count_pos_iff, hbalance]
          exact List.count_pos_iff.mpr hset
        exact hdeleted hdelete (hnot user)
      · exact habsent hset

end Token

open Token in
/-- When nobody is at work, whoever is online has a record of its token, which names it.  The
records agree with the directory unless the deletion of a record has overtaken its write. -/
theorem session_record_iff_not_overtaken {w : World} (hd : w.hub.directory = .empty)
    (hc : w.cache = .empty) {c : Scene PresenceCall}
    (h : PresenceCall.traffic.Reaches ⟨w, [], []⟩ c) (hq : c.Quiet) (token : String) :
    (∀ s, c.world.hub.directory.ofToken token = some s →
      c.world.record (Key.session token).text = some (.session s.id)) ∧
    (c.world.record (Key.session token).text =
        (c.world.hub.directory.ofToken token).map (fun s => .session s.id) ↔
      ∀ user, ¬ Overtaken token user c.world.calls) := by
  obtain ⟨user, howner⟩ : ∃ user, ∀ i ∈ c.past, Owner token user i := by
    by_cases hused : ∃ profile line, PresenceCall.login profile token line ∈ c.past
    · obtain ⟨profile, line, hl⟩ := hused
      refine ⟨profile.id, fun i hi profile' line' hil => ?_⟩
      subst hil
      rw [login_unique h hi hl]
    · refine ⟨0, fun i hi profile line hil => ?_⟩
      exact absurd ⟨profile, line, hil ▸ hi⟩ hused
  have hbegin : (tokenDiscipline token user).TasksFit (TokenGuard token user)
      (⟨w, [], []⟩ : Scene PresenceCall) := by
    refine ⟨?_, [], rfl, nofun, guard_begin token user hc hd⟩
    refine ⟨hd ▸ Directory.coherent_empty, fun s hs => ?_⟩
    rw [hd] at hs
    cases hs
  have htasksFit := (guards token user).reaches (h.only howner) hbegin
  obtain ⟨phases, hidle, hg⟩ := htasksFit.rest hq
  exact record_of_idle htasksFit.1 hg hidle

/-! ## It does happen -/

namespace Token

/-- a user with a number of its own and nothing else -/
def ada : Profile := ⟨1, "", "ada", 0, 0, "", ""⟩

/-- a user comes online twice -/
def twice : Scene PresenceCall :=
  PresenceCall.traffic.call (PresenceCall.traffic.call ⟨.blank, [], []⟩ (.login ada "T1" 0))
    (.login ada "T2" 1)

theorem reaches_twice : PresenceCall.traffic.Reaches ⟨.blank, [], []⟩ twice := by
  refine .tail (.single (.arrive ?_)) (.arrive ?_)
  · exact fun _ _ _ _ _ _ => List.not_mem_nil
  · intro _ _ _ hfalse profile line h
    cases hfalse
    have := List.mem_singleton.mp h
    simp at this

/-- The first session is entered, and torn down by the second login before its record is
written. -/
def leak : Scene PresenceCall :=
  twice.turns ([0, 0] ++ List.replicate 30 1 ++ List.replicate 30 0)

/-- one login after the other -/
def orderly : Scene PresenceCall := twice.turns (List.replicate 30 0 ++ List.replicate 30 1)

theorem reaches_leak : PresenceCall.traffic.Reaches ⟨.blank, [], []⟩ leak :=
  reaches_twice.trans (Traffic.reaches_turns _ _ _)

theorem reaches_orderly : PresenceCall.traffic.Reaches ⟨.blank, [], []⟩ orderly :=
  reaches_twice.trans (Traffic.reaches_turns _ _ _)

end Token

open Token in
/-- a record may stay for good although nobody is online with the token -/
theorem session_record_leaks :
    ¬ ∀ c : Scene PresenceCall, PresenceCall.traffic.Reaches ⟨.blank, [], []⟩ c → c.Quiet →
      ∀ token, c.world.record (Key.session token).text =
        (c.world.hub.directory.ofToken token).map fun s => .session s.id := by
  intro h
  have hleak := h leak reaches_leak (Scene.quiet_of_all (by decide +kernel)) "T1"
  have hrecord : (leak.world.record (Key.session "T1").text).isSome = true := by decide +kernel
  have hnone : (leak.world.hub.directory.ofToken "T1").isSome = false := by decide +kernel
  rw [hleak, Option.isSome_map, hnone] at hrecord
  cases hrecord

open Token in
theorem session_record_iff_not_overtaken_orderly :
    (∀ s, orderly.world.hub.directory.ofToken "T1" = some s →
      orderly.world.record (Key.session "T1").text = some (.session s.id)) ∧
    (orderly.world.record (Key.session "T1").text =
        (orderly.world.hub.directory.ofToken "T1").map (fun s => .session s.id) ↔
      ∀ user, ¬ Overtaken "T1" user orderly.world.calls) := by
  have hquiet : orderly.Quiet := Scene.quiet_of_all (by decide +kernel)
  have hdirectory : World.blank.hub.directory = .empty := rfl
  have hcache : World.blank.cache = .empty := rfl
  exact session_record_iff_not_overtaken hdirectory hcache reaches_orderly hquiet "T1"

end RhythmLobby
