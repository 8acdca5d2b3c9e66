import Mathlib.Data.Nat.Init
import RhythmLobby.Proofs.Hub.Scene
import RhythmLobby.Proofs.Hub.Trace

/-!
# One task among others

An `Interleaving` follows one task moment by moment.  Whatever happens between two of its steps is
left open, so that a statement about all interleavings is one about all orders of all tasks.

* `Interleaving.changes`, `Interleaving.stores`   how often memory looks different afterwards, and
                                                  how often the task calls the store;
* `Interleaving.Loop`         the moments that a settling loop takes, with its first and last look;
* `Interleaving.exists_loop`  a settling loop ends, and calls the store no more often than what it
                              looks at has changed;
* `Scene.follow`              a task of a scene whose tasks take turns in any order.
-/

namespace RhythmLobby
open Routine

/-- whether the next step of a task is a call on the store -/
def Routine.writes {α : Type} : Routine α → Bool
  | .effect (.update _) _ => true
  | _ => false

/-- A task among others.  At each moment the task takes its next step, or something else happens
that may change everything but the task. -/
structure Interleaving (α : Type) where
  task : Nat → Routine α
  world : Nat → World
  /-- whether the step at a moment is the task's own -/
  own : Nat → Bool
  step : ∀ n, own n = true → (task (n + 1), world (n + 1)) = (task n).step (world n)
  wait : ∀ n, own n = false → task (n + 1) = task n

namespace Interleaving

/-! ## Counting -/

/-- at how many moments from `a` to before `b` something is so -/
def tally (p : Nat → Bool) (a b : Nat) : Nat := (List.range' a (b - a)).countP p

section Tally

variable {p : Nat → Bool} {a b c : Nat}

theorem tally_add (hab : a ≤ b) (hbc : b ≤ c) : tally p a b + tally p b c = tally p a c := by
  have hsize : c - a = (b - a) + (c - b) := by omega
  have hmiddle : a + (b - a) = b := by omega
  rw [tally, tally, tally, hsize, ← List.range'_append_1, List.countP_append, hmiddle]

theorem tally_eq_zero (h : ∀ n, a ≤ n → n < b → p n = false) : tally p a b = 0 := by
  rw [tally, List.countP_eq_zero]
  intro n hn
  rw [List.mem_range'_1] at hn
  simp [h n hn.1 (by omega)]

theorem tally_succ (p : Nat → Bool) (n : Nat) : tally p n (n + 1) = if p n then 1 else 0 := by
  simp [tally, List.countP_cons]

end Tally

variable {α V : Type}

/-- the task gets its turn again and again -/
def Fair (X : Interleaving α) : Prop := ∀ n, ∃ m, n ≤ m ∧ X.own m = true

/-- what `see` shows of memory changes only finitely often -/
def Calms (X : Interleaving α) (see : Hub → V) : Prop :=
  ∃ calm, ∀ n, calm ≤ n → see (X.world (n + 1)).hub = see (X.world n).hub

variable [DecidableEq V]

/-- how often what `see` shows of memory is different after a moment from `a` to before `b` -/
def changes (X : Interleaving α) (see : Hub → V) (a b : Nat) : Nat :=
  tally (fun n => see (X.world (n + 1)).hub != see (X.world n).hub) a b

/-- how often the task calls the store from `a` to before `b` -/
def stores (X : Interleaving α) (a b : Nat) : Nat :=
  tally (fun n => X.own n && (X.task n).writes) a b

variable {X : Interleaving α} {see : Hub → V} {a b n m o : Nat}

theorem changes_le (hon : o ≤ n) (hnm : n ≤ m) : X.changes see o n ≤ X.changes see o m := by
  have hadd : X.changes see o n + X.changes see n m = X.changes see o m := tally_add hon hnm
  omega

/-- where something is seen that was not seen before, there was a change -/
theorem changes_pos (hab : a ≤ b) (h : see (X.world b).hub ≠ see (X.world a).hub) :
    0 < X.changes see a b := by
  induction b, hab using Nat.le_induction with
  | base => exact absurd rfl h
  | succ b hab ih =>
    have hadd : X.changes see a b + X.changes see b (b + 1) = X.changes see a (b + 1) :=
      tally_add hab (Nat.le_succ b)
    by_cases hb : see (X.world (b + 1)).hub = see (X.world b).hub
    · have := ih (hb ▸ h)
      omega
    · have hone : X.changes see b (b + 1) = 1 := by
        rw [changes, tally_succ, if_pos (by simpa using hb)]
      omega

/-! ## Turns -/

/-- `m` is the first moment from `a` on at which the task has its turn -/
structure NextTurn (X : Interleaving α) (a m : Nat) : Prop where
  le : a ≤ m
  own : X.own m = true
  idle : ∀ n, a ≤ n → n < m → X.own n = false

theorem Fair.nextTurn (hX : X.Fair) (a : Nat) : ∃ m, X.NextTurn a m := by
  obtain ⟨m, ham, hown⟩ := hX a
  obtain ⟨k, rfl⟩ := Nat.exists_eq_add_of_le ham
  clear ham
  induction k generalizing a with
  | zero => exact ⟨a, Nat.le_refl a, hown, fun n _ _ => by omega⟩
  | succ k ih =>
    by_cases ha : X.own a = true
    · exact ⟨a, Nat.le_refl a, ha, fun n _ _ => by omega⟩
    · obtain ⟨m, hm⟩ := ih (a + 1) (by rwa [Nat.add_assoc, Nat.add_comm 1])
      refine ⟨m, by have := hm.le; omega, hm.own, fun n han hnm => ?_⟩
      rcases Nat.eq_or_lt_of_le han with rfl | han
      · exact Bool.eq_false_iff.mpr ha
      · exact hm.idle n han hnm

namespace NextTurn

variable (hm : X.NextTurn a m)
include hm

/-- until it has its turn the task stays as it is -/
theorem task (han : a ≤ n) (hnm : n ≤ m) : X.task n = X.task a := by
  induction n, han using Nat.le_induction with
  | base => rfl
  | succ n han ih => rw [X.wait n (hm.idle n han (by omega)), ih (by omega)]

theorem task_succ : X.task (m + 1) = ((X.task a).step (X.world m)).1 := by
  have hstep := congrArg Prod.fst (X.step m hm.own)
  rwa [hm.task hm.le (Nat.le_refl m)] at hstep

theorem world_succ : X.world (m + 1) = ((X.task a).step (X.world m)).2 := by
  have hstep := congrArg Prod.snd (X.step m hm.own)
  rwa [hm.task hm.le (Nat.le_refl m)] at hstep

theorem stores : X.stores a (m + 1) = if (X.task a).writes then 1 else 0 := by
  have hidle : X.stores a m = 0 := tally_eq_zero fun n han hnm => by
    rw [hm.idle n han hnm, Bool.false_and]
  have hadd : X.stores a m + X.stores m (m + 1) = X.stores a (m + 1) :=
    tally_add hm.le (Nat.le_succ m)
  have hown : X.stores m (m + 1) = if (X.task a).writes then 1 else 0 := by
    rw [Interleaving.stores, tally_succ, hm.own, Bool.true_and, hm.task hm.le (Nat.le_refl m)]
  omega

end NextTurn

end Interleaving

/-! ## Settling loops -/

/-- A loop that looks at nothing but what `see` shows.  Where this is `fine`, one update leaves
nothing to do. -/
structure Routine.Settles {β γ V : Type} (turn : β → Hub → Turn β γ) (see : Hub → V)
    (fine : V → Prop) : Prop where
  same : ∀ {found h h'}, see h = see h' → turn found h = turn found h'
  once : ∀ found h, fine (see h) → (∃ c, turn found h = .stop c) ∨
    ∃ u found' c, turn found h = .update u found' ∧ turn found' h = .stop c

namespace Interleaving

variable {α β γ V : Type} [DecidableEq V] {X : Interleaving α} {see : Hub → V} {fine : V → Prop}
  {turn : β → Hub → Turn β γ} {found : β} {next : γ → Routine α} {a b first last m n o : Nat}

/-- the task is in a settling loop, or about to do what the loop has decided on -/
def Within (X : Interleaving α) (turn : β → Hub → Turn β γ) (next : γ → Routine α) (n : Nat) :
    Prop :=
  ∃ found, X.task n = .settle turn found next ∨
    ∃ u, X.task n = .effect (.update u) fun _ => .settle turn found next

/-- From the moment `a` on the task is in a settling loop.  It looks at memory for the first time
at `first`, and for the last time at `last`, where it finds nothing left to do. -/
structure Loop (X : Interleaving α) (turn : β → Hub → Turn β γ) (next : γ → Routine α)
    (a first last : Nat) : Prop where
  enters : X.NextTurn a first
  le : first ≤ last
  within : ∀ n, a ≤ n → n ≤ last → X.Within turn next n
  own : X.own last = true
  ends : ∃ c, X.task (last + 1) = next c

namespace NextTurn

theorem loop_of_stop (hm : X.NextTurn a m) (htask : X.task a = .settle turn found next)
    (hstop : ∃ c, turn found (X.world m).hub = .stop c) :
    X.Loop turn next a m m ∧ X.stores a (m + 1) = 0 := by
  obtain ⟨c, hc⟩ := hstop
  refine ⟨⟨hm, Nat.le_refl m, fun n han hnm => ?_, hm.own, c, ?_⟩, ?_⟩
  · exact ⟨found, .inl ((hm.task han hnm).trans htask)⟩
  · rw [hm.task_succ, htask, Routine.step, hc]
  · rw [hm.stores, htask]
    rfl

/-- a look that finds something to do, and the update that follows -/
theorem exists_round (hm : X.NextTurn a m) (hX : X.Fair)
    (htask : X.task a = .settle turn found next) {u : Cache.Update} {found' : β}
    (hupdate : turn found (X.world m).hub = .update u found') :
    ∃ b, m < b ∧ X.task b = .settle turn found' next ∧ X.stores a b = 1 ∧
      ∀ n, a ≤ n → n < b → X.Within turn next n := by
  have hnext : X.task (m + 1) = .effect (.update u) fun _ => .settle turn found' next := by
    rw [hm.task_succ, htask, Routine.step, hupdate]
    rfl
  obtain ⟨k, hk⟩ := hX.nextTurn (m + 1)
  have hle := hk.le
  refine ⟨k + 1, by omega, ?_, ?_, fun n han hnk => ?_⟩
  · rw [hk.task_succ, hnext]
    rfl
  · have hlook := hm.stores
    have hcall := hk.stores
    rw [htask] at hlook
    rw [hnext] at hcall
    have hadd : X.stores a (m + 1) + X.stores (m + 1) (k + 1) = X.stores a (k + 1) :=
      tally_add (by have := hm.le; omega) (by omega)
    rw [← hadd, hlook, hcall]
    rfl
  · by_cases hnm : n ≤ m
    · exact ⟨found, .inl ((hm.task han hnm).trans htask)⟩
    · exact ⟨found', .inr ⟨u, (hk.task (by omega) (by omega)).trans hnext⟩⟩

end NextTurn

theorem Loop.before {k : Nat} (hl : X.Loop turn next b k last)
    (hcalls : X.stores b (last + 1) ≤ X.changes see m last) (hm : X.NextTurn a m) (hmb : m < b)
    (hround : X.stores a b = 1) (hwithin : ∀ n, a ≤ n → n < b → X.Within turn next n) :
    X.Loop turn next a m last ∧ X.stores a (last + 1) ≤ X.changes see m last + 1 := by
  have ham := hm.le
  have hbl : b ≤ last := Nat.le_trans hl.enters.le hl.le
  refine ⟨⟨hm, by omega, fun n han hn => ?_, hl.own, hl.ends⟩, ?_⟩
  · by_cases hnb : n < b
    · exact hwithin n han hnb
    · exact hl.within n (by omega) hn
  · have hadd : X.stores a b + X.stores b (last + 1) = X.stores a (last + 1) :=
      tally_add (by omega) (by omega)
    omega

theorem Calms.exists_bound (h : X.Calms see) (o : Nat) :
    ∃ bound, ∀ b, o ≤ b → X.changes see o b < bound := by
  obtain ⟨calm, hcalm⟩ := h
  refine ⟨X.changes see o (max o calm) + 1, fun b hob => Nat.lt_succ_of_le ?_⟩
  by_cases hb : b ≤ max o calm
  · exact changes_le hob hb
  · have hadd : X.changes see o (max o calm) + X.changes see (max o calm) b =
        X.changes see o b := tally_add (by omega) (by omega)
    have hnone : X.changes see (max o calm) b = 0 := tally_eq_zero fun n hn _ => by
      rw [hcalm n (by omega), bne_self_eq_false]
    omega

/-- a look that finds something to do although at `o` there was nothing to do -/
theorem changes_pos_of_update (hturn : Settles turn see fine) (hom : o ≤ m)
    (hstop : ∃ c, turn found (X.world o).hub = .stop c) {u : Cache.Update} {found' : β}
    (hupdate : turn found (X.world m).hub = .update u found') : 0 < X.changes see o m := by
  apply changes_pos hom
  intro hsee
  obtain ⟨c, hc⟩ := hstop
  rw [hturn.same hsee, hc] at hupdate
  cases hupdate

/-- The settling loop in which the task is at the moment `a` ends.  After its first call on the
store it makes at most one more for each change between its first and its last look.  Counted from
a moment at which it would have had nothing to do, it makes at most one call for each change. -/
def Finishes (X : Interleaving α) (see : Hub → V) (turn : β → Hub → Turn β γ) (found : β)
    (next : γ → Routine α) (a : Nat) : Prop :=
  ∃ first last, X.Loop turn next a first last ∧
    X.stores a (last + 1) ≤ X.changes see first last + 1 ∧
    ∀ o, o ≤ first → (∃ c, turn found (X.world o).hub = .stop c) →
      X.stores a (last + 1) ≤ X.changes see o last

section Ends

variable (hX : X.Fair) (hturn : Settles turn see fine) (hfine : ∀ n, fine (see (X.world n).hub))
include hX hturn hfine

/-- The loop would have had nothing to do at `o`.  As every round needs a change since the last
look, the loop ends, and there are at least as many changes as rounds. -/
theorem exists_loop_since {bound : Nat} (hbound : ∀ b, o ≤ b → X.changes see o b < bound)
    (hoa : o ≤ a) (htask : X.task a = .settle turn found next)
    (hstop : ∃ c, turn found (X.world o).hub = .stop c) :
    ∃ first last, X.Loop turn next a first last ∧
      X.stores a (last + 1) ≤ X.changes see o last := by
  induction bound generalizing o a found with
  | zero => exact absurd (hbound o (Nat.le_refl o)) (Nat.not_lt_zero _)
  | succ bound ih =>
    obtain ⟨m, hm⟩ := hX.nextTurn a
    have hom : o ≤ m := Nat.le_trans hoa hm.le
    rcases hturn.once found _ (hfine m) with hstop' | ⟨u, found', c, hupdate, hstop'⟩
    · obtain ⟨hloop, hstores⟩ := hm.loop_of_stop htask hstop'
      exact ⟨m, m, hloop, by omega⟩
    have hchanged := changes_pos_of_update hturn hom hstop hupdate
    have hsince (b : Nat) (hmb : m ≤ b) :
        X.changes see o m + X.changes see m b = X.changes see o b := tally_add hom hmb
    have hrest : ∀ b, m ≤ b → X.changes see m b < bound := by
      intro b hmb
      have hadd := hsince b hmb
      have hall := hbound b (Nat.le_trans hom hmb)
      omega
    obtain ⟨b, hmb, htask', hround, hwithin⟩ := hm.exists_round hX htask hupdate
    obtain ⟨k, last, hloop, hcalls⟩ := ih hrest (Nat.le_of_lt hmb) htask' ⟨c, hstop'⟩
    obtain ⟨hloop, hcalls⟩ := hloop.before hcalls hm hmb hround hwithin
    have hadd := hsince last hloop.le
    exact ⟨m, last, hloop, by omega⟩

theorem exists_loop (hcalms : X.Calms see) (htask : X.task a = .settle turn found next) :
    X.Finishes see turn found next a := by
  obtain ⟨m, hm⟩ := hX.nextTurn a
  rcases hturn.once found _ (hfine m) with hstop | ⟨u, found', c, hupdate, hstop⟩
  · obtain ⟨hloop, hstores⟩ := hm.loop_of_stop htask hstop
    exact ⟨m, m, hloop, by omega, fun o _ _ => by omega⟩
  · obtain ⟨bound, hbound⟩ := hcalms.exists_bound m
    obtain ⟨b, hmb, htask', hround, hwithin⟩ := hm.exists_round hX htask hupdate
    obtain ⟨k, last, hloop, hcalls⟩ :=
      exists_loop_since hX hturn hfine hbound (Nat.le_of_lt hmb) htask' ⟨c, hstop⟩
    obtain ⟨hloop, hcalls⟩ := hloop.before hcalls hm hmb hround hwithin
    refine ⟨m, last, hloop, hcalls, fun o hom hstop' => ?_⟩
    have hchanged := changes_pos_of_update hturn hom hstop' hupdate
    have hadd : X.changes see o m + X.changes see m last = X.changes see o last :=
      tally_add hom hloop.le
    omega

end Ends

/-! ## Whole tasks -/

/-- at some moment since `o` memory was like this, or there was a change since -/
def Seen (X : Interleaving α) (see : Hub → V) (P : Hub → Prop) (o n : Nat) : Prop :=
  (∃ m, o ≤ m ∧ m ≤ n ∧ P (X.world m).hub) ∨ 0 < X.changes see o n

namespace Seen

variable {P P' : Hub → Prop}

theorem now (hon : o ≤ n) (h : P (X.world n).hub) : X.Seen see P o n :=
  .inl ⟨n, hon, Nat.le_refl n, h⟩

theorem mono (h : X.Seen see P o n) (hon : o ≤ n) (hnm : n ≤ m) : X.Seen see P o m := by
  rcases h with ⟨k, hok, hkn, hP⟩ | hchanged
  · exact .inl ⟨k, hok, Nat.le_trans hkn hnm, hP⟩
  · exact .inr (Nat.lt_of_lt_of_le hchanged (changes_le hon hnm))

theorem imp (h : X.Seen see P o n) (hP : ∀ m, P (X.world m).hub → P' (X.world m).hub) :
    X.Seen see P' o n :=
  h.imp_left fun ⟨m, hom, hmn, hm⟩ => ⟨m, hom, hmn, hP m hm⟩

end Seen

/-- it has been seen since `o` that the loop would have nothing to do, unless there was a change -/
abbrev Informed (X : Interleaving α) (see : Hub → V) (turn : β → Hub → Turn β γ) (found : β)
    (o n : Nat) : Prop :=
  X.Seen see (fun h => ∃ c, turn found h = .stop c) o n

/-- The task does `r` from the moment `n` on, and all its settling loops are informed since `o`.
At the end of `r` it is so that `Q`. -/
def LoopsInformed (X : Interleaving α) (see : Hub → V) (fine : V → Prop) (o : Nat) {δ : Type}
    (r : Routine δ) (Q : δ → Nat → Prop) (n : Nat) : Prop :=
  match r with
  | .done x => Q x n
  | .atomic act next => ∀ m, n ≤ m → X.LoopsInformed see fine o (next (act (X.world m).hub).1) Q
    (m + 1)
  | .effect _ next => ∀ a m, n ≤ m → X.LoopsInformed see fine o (next a) Q (m + 1)
  | .settle turn found next => Settles turn see fine ∧ X.Informed see turn found o n ∧
      ∀ c m, n ≤ m → X.LoopsInformed see fine o (next c) Q m

namespace LoopsInformed

variable {δ ε : Type} {r : Routine δ} {Q : δ → Nat → Prop}

theorem bind {f : δ → Routine ε} {Q' : ε → Nat → Prop} (hr : X.LoopsInformed see fine o r Q n)
    (hf : ∀ x m, Q x m → X.LoopsInformed see fine o (f x) Q' m) :
    X.LoopsInformed see fine o (r.bind f) Q' n := by
  induction r generalizing n with
  | done x => exact hf x n hr
  | atomic act next ih => exact fun m hnm => ih _ (hr m hnm)
  | effect e next ih => exact fun a m hnm => ih a (hr a m hnm)
  | settle turn found next ih => exact ⟨hr.1, hr.2.1, fun c m hnm => ih c (hr.2.2 c m hnm)⟩

theorem weaken {Q' : δ → Nat → Prop} (hr : X.LoopsInformed see fine o r Q n)
    (hQ : ∀ x m, Q x m → Q' x m) : X.LoopsInformed see fine o r Q' n := by
  have h := hr.bind (f := Routine.done) hQ
  rwa [Routine.done_bind] at h

theorem mono (hQ : ∀ x n m, n ≤ m → Q x n → Q x m) (hr : X.LoopsInformed see fine o r Q n)
    (hon : o ≤ n)
    (hnm : n ≤ m) : X.LoopsInformed see fine o r Q m := by
  cases r with
  | done x => exact hQ x n m hnm hr
  | atomic act next => exact fun k hmk => hr k (Nat.le_trans hnm hmk)
  | effect e next => exact fun a k hmk => hr a k (Nat.le_trans hnm hmk)
  | settle turn found next =>
    exact ⟨hr.1, hr.2.1.mono hon hnm, fun c k hmk => hr.2.2 c k (Nat.le_trans hnm hmk)⟩

theorem each {f : δ → Routine Unit} {xs : List δ}
    (hf : ∀ x ∈ xs, ∀ m, n ≤ m → X.LoopsInformed see fine o (f x) (fun _ k => m ≤ k) m) :
    X.LoopsInformed see fine o (Routine.each f xs) (fun _ k => n ≤ k) n := by
  induction xs generalizing n with
  | nil => exact Nat.le_refl n
  | cons x xs ih =>
    refine bind (hf x List.mem_cons_self n (Nat.le_refl n)) fun _ m hnm => ?_
    have hrest := ih fun y hy k hmk => hf y (List.mem_cons_of_mem x hy) k (Nat.le_trans hnm hmk)
    exact hrest.weaken fun _ _ hk => Nat.le_trans hnm hk

theorem step (hfine : ∀ n, fine (see (X.world n).hub)) {Q : α → Nat → Prop}
    (hQ : ∀ x n m, n ≤ m → Q x n → Q x m) (hon : o ≤ n)
    (h : X.LoopsInformed see fine o (X.task n) Q n) :
    X.LoopsInformed see fine o (X.task (n + 1)) Q (n + 1) := by
  by_cases hown : X.own n = true
  · have htask := congrArg Prod.fst (X.step n hown)
    dsimp only at htask
    rw [htask]
    cases hr : X.task n with
    | done x =>
      rw [hr] at h
      exact hQ x n (n + 1) (Nat.le_succ n) h
    | atomic act next =>
      rw [hr] at h
      exact h n (Nat.le_refl n)
    | effect e next =>
      rw [hr] at h
      exact h _ n (Nat.le_refl n)
    | settle turn found next =>
      rw [hr] at h
      obtain ⟨hturn, -, hnext⟩ := h
      rcases hturn.once found _ (hfine n) with ⟨c, hc⟩ | ⟨u, found', c, hupdate, hstop⟩
      · rw [Routine.step, hc]
        exact hnext c (n + 1) (Nat.le_succ n)
      · rw [Routine.step, hupdate]
        intro _ m hnm
        refine ⟨hturn, .inl ⟨n, hon, by omega, c, hstop⟩, fun c k hmk => hnext c k (by omega)⟩
  · rw [X.wait n (Bool.eq_false_iff.mpr hown)]
    exact h.mono hQ hon (Nat.le_succ n)

end LoopsInformed

section Ends

variable (hX : X.Fair) (hfine : ∀ n, fine (see (X.world n).hub)) (hcalms : X.Calms see)
include hX hfine hcalms

/-- a settling loop that is informed makes no more calls than there are changes since `o` -/
theorem exists_loop_of_informed (hturn : Settles turn see fine) (hon : o ≤ n)
    (h : X.Informed see turn found o n) (htask : X.task n = .settle turn found next) :
    ∃ first last, X.Loop turn next n first last ∧
      X.stores n (last + 1) ≤ X.changes see o last := by
  obtain ⟨first, last, hloop, hcalls, hsince⟩ :=
    exists_loop hX hturn hfine hcalms htask
  refine ⟨first, last, hloop, ?_⟩
  have hnf := hloop.enters.le
  have hfl := hloop.le
  rcases h with ⟨m, hom, hmn, hstop⟩ | hchanged
  · have hadd : X.changes see o m + X.changes see m last = X.changes see o last :=
      tally_add hom (by omega)
    have hcalls := hsince m (by omega) hstop
    omega
  · have hadd : X.changes see o n + X.changes see n last = X.changes see o last :=
      tally_add hon (by omega)
    have hadd' : X.changes see n first + X.changes see first last = X.changes see n last :=
      tally_add hnf hfl
    omega

theorem LoopsInformed.ends {r : Routine α} {Q : α → Nat → Prop} (hon : o ≤ n) (htask : X.task n = r)
    (hr : X.LoopsInformed see fine o r Q n) : ∃ m x, n ≤ m ∧ X.task m = .done x ∧ Q x m := by
  induction r generalizing n with
  | done x => exact ⟨n, x, Nat.le_refl n, htask, hr⟩
  | atomic act next ih =>
    obtain ⟨m, hm⟩ := hX.nextTurn n
    have hnm := hm.le
    have htask' : X.task (m + 1) = next (act (X.world m).hub).1 := by
      rw [hm.task_succ, htask, Routine.step]
    obtain ⟨k, x, hmk, hend⟩ := ih _ (by omega) htask' (hr m hnm)
    exact ⟨k, x, by omega, hend⟩
  | effect e next ih =>
    obtain ⟨m, hm⟩ := hX.nextTurn n
    have hnm := hm.le
    have htask' : X.task (m + 1) = next (e.answer (X.world m)) := by
      rw [hm.task_succ, htask, Routine.step]
    obtain ⟨k, x, hmk, hend⟩ := ih _ (by omega) htask' (hr _ m hnm)
    exact ⟨k, x, by omega, hend⟩
  | settle turn found next ih =>
    obtain ⟨first, last, hloop, -⟩ := exists_loop_of_informed hX hfine hcalms hr.1 hon hr.2.1 htask
    obtain ⟨c, hc⟩ := hloop.ends
    have hnl : n ≤ last := Nat.le_trans hloop.enters.le hloop.le
    obtain ⟨k, x, hlk, hend⟩ := ih c (by omega) hc (hr.2.2 c (last + 1) (by omega))
    exact ⟨k, x, by omega, hend⟩

end Ends

/-- The task comes to its end.  Whenever it calls the store and settles, it makes no more calls
after this one than there are changes from `o` to the last look of the settling loop. -/
structure BoundedCalls (X : Interleaving α) (see : Hub → V) (o : Nat) : Prop where
  ends : ∃ n x, X.task n = .done x
  settles : ∀ {β γ : Type} {turn : β → Hub → Turn β γ} {found : β} {next : γ → Routine α}
    {u : Cache.Update} {n : Nat}, o ≤ n → X.own n = true →
    (X.task n = .effect (.update u) fun _ => .settle turn found next) →
    ∃ first last, X.Loop turn next (n + 1) first last ∧
      X.stores (n + 1) (last + 1) ≤ X.changes see o last

theorem LoopsInformed.boundedCalls (hX : X.Fair) (hfine : ∀ n, fine (see (X.world n).hub))
    (hcalms : X.Calms see) (h : X.LoopsInformed see fine o (X.task o) (fun _ _ => True) o) :
    X.BoundedCalls see o where
  ends := by
    obtain ⟨n, x, -, hn, -⟩ := h.ends hX hfine hcalms (Nat.le_refl o) rfl
    exact ⟨n, x, hn⟩
  settles {β γ turn found next u n} hon hown htask := by
    have hall (k : Nat) (hok : o ≤ k) :
        X.LoopsInformed see fine o (X.task k) (fun _ _ => True) k := by
      induction k, hok using Nat.le_induction with
      | base => exact h
      | succ k hok ih => exact ih.step hfine (fun _ _ _ _ _ => trivial) hok
    have hnext : X.task (n + 1) = .settle turn found next := by
      have hstep := congrArg Prod.fst (X.step n hown)
      rw [htask] at hstep
      exact hstep
    have hsettle := hall (n + 1) (by omega)
    rw [hnext] at hsettle
    exact exists_loop_of_informed hX hfine hcalms hsettle.1 (by omega) hsettle.2.1 hnext

end Interleaving

/-! ## Tasks of a scene -/

namespace Scene

variable {ι : Type}

/-- the scene after the first turns of an endless order -/
def after (c : Scene ι) (order : Nat → Nat) : Nat → Scene ι
  | 0 => c
  | n + 1 => (c.after order n).turn (order n)

theorem length_turn (c : Scene ι) (i : Nat) : (c.turn i).tasks.length = c.tasks.length := by
  unfold turn
  cases c.tasks[i]? with
  | none => rfl
  | some r => exact List.length_set

theorem length_after (c : Scene ι) (order : Nat → Nat) (n : Nat) :
    (c.after order n).tasks.length = c.tasks.length := by
  induction n with
  | zero => rfl
  | succ n ih => exact (length_turn _ _).trans ih

theorem getElem?_turn_of_ne (c : Scene ι) {i j : Nat} (h : i ≠ j) :
    (c.turn i).tasks[j]? = c.tasks[j]? := by
  unfold turn
  cases c.tasks[i]? with
  | none => rfl
  | some r => exact List.getElem?_set_ne h

/-- a task in the midst of others that take their turns in any order -/
def follow (c : Scene ι) (order : Nat → Nat) (i : Nat) (hi : i < c.tasks.length) :
    Interleaving Unit where
  task n := ((c.after order n).tasks[i]?).getD (.done ())
  world n := (c.after order n).world
  own n := order n == i
  step n hown := by
    have hn : i < (c.after order n).tasks.length := by rwa [length_after]
    rw [after, eq_of_beq hown]
    generalize c.after order n = d at hn
    unfold turn
    rw [List.getElem?_eq_getElem hn]
    simp [hn]
  wait n hown := by
    rw [after, getElem?_turn_of_ne]
    simpa using hown

theorem Quiet.turn {c : Scene ι} (h : c.Quiet) (i : Nat) : c.turn i = c := by
  unfold Scene.turn
  cases hr : c.tasks[i]? with
  | none => rfl
  | some r =>
    have hdone := h r (List.mem_of_getElem? hr)
    have hset : c.tasks.set i r = c.tasks := by
      obtain ⟨hi, rfl⟩ := List.getElem?_eq_some_iff.mp hr
      exact List.set_getElem_self hi
    subst hdone
    show ({ c with world := c.world, tasks := c.tasks.set i (.done ()) } : Scene ι) = c
    rw [hset]

theorem Quiet.after {c : Scene ι} {order : Nat → Nat} {n m : Nat}
    (h : (c.after order n).Quiet) (hnm : n ≤ m) : c.after order m = c.after order n := by
  induction m, hnm using Nat.le_induction with
  | base => rfl
  | succ m hnm ih => rw [Scene.after, ih, h.turn]

end Scene
end RhythmLobby
