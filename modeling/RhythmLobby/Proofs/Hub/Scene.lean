import Mathlib.Logic.Relation
import RhythmLobby.Proofs.Hub.Discipline

/-!
# Scenes of many tasks

A `Scene` is a world with the tasks at work in it and the calls so far.  Between two steps of one
task others may take any number of steps, and new tasks may arrive at any moment.

* `Traffic`                  the calls that may arrive, and those that are carried out as a whole;
* `Traffic.Reaches`          the scenes that come about;
* `Traffic.reaches_turns`    one order of the steps is one way to get there;
* `Discipline.Guards.reaches`   what every allowed step of one task keeps holds in all of them;
* `Discipline.TasksFit.rest`   in a quiet scene all tasks are at rest.
-/

namespace RhythmLobby

/-- a world, the tasks at work in it, and the calls so far -/
structure Scene (ι : Type) where
  world : World
  tasks : List (Routine Unit)
  past : List ι

/-- whether a task has ended -/
def Routine.isDone {α : Type} : Routine α → Bool
  | .done _ => true
  | _ => false

namespace Scene

variable {ι : Type}

/-- no task is at work -/
def Quiet (c : Scene ι) : Prop := ∀ r ∈ c.tasks, r = .done ()

theorem quiet_of_all {c : Scene ι} (h : c.tasks.all Routine.isDone = true) : c.Quiet := by
  intro r hr
  have := List.all_eq_true.mp h r hr
  cases r with
  | done x => rfl
  | _ => cases this

/-- one step of a task, by its number -/
def turn (c : Scene ι) (n : Nat) : Scene ι :=
  match c.tasks[n]? with
  | none => c
  | some r => { c with world := (r.step c.world).2, tasks := c.tasks.set n (r.step c.world).1 }

/-- steps of tasks in a given order -/
def turns (c : Scene ι) (order : List Nat) : Scene ι := order.foldl turn c

theorem past_turn (c : Scene ι) (n : Nat) : (c.turn n).past = c.past := by
  unfold turn
  cases c.tasks[n]? <;> rfl

theorem past_turns (c : Scene ι) (order : List Nat) : (c.turns order).past = c.past := by
  induction order generalizing c with
  | nil => rfl
  | cons n order ih => exact (ih (c.turn n)).trans (c.past_turn n)

end Scene

theorem Discipline.keeps_void {σ α : Type} {D : Discipline σ} {r : Routine α}
    {Q : Hub → σ → Prop} {h : Hub} {s : σ} (hr : D.Keeps r (fun _ => Q) h s) :
    D.Keeps r.void (fun _ => Q) h s :=
  keeps_bind hr fun _ _ _ hq => hq

/-- the calls of some kind -/
structure Traffic (ι : Type) where
  /-- what is done on a call -/
  task : ι → Routine Unit
  /-- the calls that may arrive -/
  may : Scene ι → ι → Prop
  /-- the calls that are carried out without a break, and the world afterwards -/
  whole : Scene ι → ι → World → Prop

namespace Traffic

variable {ι : Type} {T : Traffic ι}

/-- the scene once a call has arrived -/
def call (T : Traffic ι) (c : Scene ι) (i : ι) : Scene ι :=
  { c with tasks := c.tasks ++ [T.task i], past := c.past ++ [i] }

/-- what may happen next -/
inductive Next (T : Traffic ι) : Scene ι → Scene ι → Prop
  | arrive {c : Scene ι} {i : ι} : T.may c i → Next T c (T.call c i)
  | step {c : Scene ι} {before after : List (Routine Unit)} {r : Routine Unit} :
      c.tasks = before ++ r :: after →
      Next T c { c with
        world := (r.step c.world).2
        tasks := before ++ (r.step c.world).1 :: after }
  | whole {c : Scene ι} {i : ι} {w : World} : T.whole c i w →
      Next T c { c with world := w, past := c.past ++ [i] }

/-- the scenes that come about after a scene -/
def Reaches (T : Traffic ι) : Scene ι → Scene ι → Prop := Relation.ReflTransGen T.Next

/-- the same traffic, with fewer arrivals -/
def only (T : Traffic ι) (p : ι → Prop) : Traffic ι where
  task := T.task
  may c i := T.may c i ∧ p i
  whole c i w := T.whole c i w ∧ p i

theorem reaches_turn (T : Traffic ι) (c : Scene ι) (n : Nat) : T.Reaches c (c.turn n) := by
  unfold Scene.turn
  cases hr : c.tasks[n]? with
  | none => exact .refl
  | some r =>
    obtain ⟨hn, rfl⟩ := List.getElem?_eq_some_iff.mp hr
    refine .single ?_
    dsimp only
    rw [List.set_eq_take_append_cons_drop, if_pos hn]
    have htasks : c.tasks = c.tasks.take n ++ c.tasks[n] :: c.tasks.drop (n + 1) := by
      rw [← List.drop_eq_getElem_cons hn, List.take_append_drop]
    exact .step htasks

/-- whatever the order of their steps, tasks lead to a scene that may come about -/
theorem reaches_turns (T : Traffic ι) (c : Scene ι) (order : List Nat) :
    T.Reaches c (c.turns order) := by
  induction order generalizing c with
  | nil => exact .refl
  | cons n order ih => exact (T.reaches_turn c n).trans (ih (c.turn n))

theorem Next.past_subset {c c' : Scene ι} (h : T.Next c c') {i : ι} (hi : i ∈ c.past) :
    i ∈ c'.past := by
  cases h with
  | arrive _ => exact List.mem_append_left _ hi
  | step _ => exact hi
  | whole _ => exact List.mem_append_left _ hi

theorem Reaches.only {p : ι → Prop} {c c' : Scene ι} (h : T.Reaches c c')
    (hp : ∀ i ∈ c'.past, p i) : (T.only p).Reaches c c' := by
  induction h with
  | refl => exact .refl
  | tail _ hn ih =>
    refine .tail (ih fun i hi => hp i (hn.past_subset hi)) ?_
    cases hn with
    | arrive ha => exact .arrive (T := T.only p) ⟨ha, hp _ (by simp [call])⟩
    | step hs => exact .step hs
    | whole hw => exact .whole (T := T.only p) ⟨hw, hp _ (by simp)⟩

end Traffic

namespace Discipline

variable {σ ι : Type} {D : Discipline σ} {T : Traffic ι} {G : World → List σ → List ι → Prop}

/-- all tasks keep to the discipline, and `G` holds of the world, their phases and the calls -/
def TasksFit (D : Discipline σ) (G : World → List σ → List ι → Prop) (c : Scene ι) : Prop :=
  D.sound c.world.hub ∧ ∃ ps : List (Worker σ), c.tasks = ps.map Worker.task ∧
    (∀ p ∈ ps, p.Fits D c.world.hub) ∧ G c.world (ps.map Worker.phase) c.past

theorem Worker.Fits.drift {p : Worker σ} {h h' : Hub} (hp : p.Fits D h) (hd : D.drift h h') :
    p.Fits D h' := ⟨D.drift_trans hp.1 hd, hp.2⟩

theorem Worker.Fits.rest {p : Worker σ} {h : Hub} (hp : p.Fits D h) (hdone : p.task = .done ()) :
    D.rest p.phase := by
  have hk := hp.2
  rw [hdone] at hk
  exact hk

/-- the tasks that have ended are in a phase of rest -/
def Resting (D : Discipline σ) (c : Scene ι) (ss : List σ) : Prop :=
  ∀ (n : Nat) (s : σ), c.tasks[n]? = some (.done ()) → ss[n]? = some s → D.rest s

theorem resting_of_fits {c : Scene ι} {ps : List (Worker σ)} (htasks : c.tasks = ps.map Worker.task)
    (hfit : ∀ p ∈ ps, p.Fits D c.world.hub) : D.Resting c (ps.map Worker.phase) := by
  intro n s hdone hs
  rw [htasks, List.getElem?_map] at hdone
  rw [List.getElem?_map] at hs
  obtain ⟨p, hp, htask⟩ := Option.map_eq_some_iff.mp hdone
  rw [hp] at hs
  cases hs
  exact (hfit p (List.mem_of_getElem? hp)).rest htask

/-- `G` is kept by arrivals, by single steps and by calls that are carried out as a whole; a task
that arrives may count on those that have ended -/
structure Guards (D : Discipline σ) (T : Traffic ι) (G : World → List σ → List ι → Prop) :
    Prop where
  arrive : ∀ {c ss i}, D.sound c.world.hub → G c.world ss c.past → D.Resting c ss → T.may c i →
    ∃ s, D.Keeps (T.task i) (fun _ _ s => D.rest s) c.world.hub s ∧
      G c.world (ss ++ [s]) (c.past ++ [i])
  moves : ∀ {w before s after past w' s'}, D.sound w.hub → G w (before ++ s :: after) past →
    D.Moves w s w' s' → G w' (before ++ s' :: after) past
  whole : ∀ {c ss i w'}, D.sound c.world.hub → G c.world ss c.past → T.whole c i w' →
    D.sound w'.hub ∧ D.drift c.world.hub w'.hub ∧ G w' ss (c.past ++ [i])

theorem Guards.next (hG : D.Guards T G) {c c' : Scene ι} (hn : T.Next c c')
    (hc : D.TasksFit G c) : D.TasksFit G c' := by
  obtain ⟨hs, ps, htasks, hfit, hg⟩ := hc
  cases hn with
  | arrive hm =>
    rename_i i
    obtain ⟨s, hk, hg⟩ := hG.arrive hs hg (resting_of_fits htasks hfit) hm
    refine ⟨hs, ps ++ [⟨T.task i, c.world.hub, s⟩], by simp [Traffic.call, htasks], ?_,
      by simpa [Traffic.call] using hg⟩
    intro p hp
    rcases List.mem_append.mp hp with hp | hp
    · exact hfit p hp
    · rw [List.mem_singleton] at hp
      subst hp
      exact ⟨D.drift_refl _, hk⟩
  | step ht =>
    rename_i before after r
    rw [ht] at htasks
    obtain ⟨pb, pr, rfl, hb, hr⟩ := List.map_eq_append_iff.mp htasks.symm
    obtain ⟨p, pa, rfl, rfl, ha⟩ := List.map_eq_cons_iff.mp hr
    obtain ⟨s', hm, hf⟩ := (hfit p (by simp)).step hs
    have hd := hm.drift hs
    let w' := (p.task.step c.world).2
    refine ⟨hm.sound hs, pb ++ ⟨(p.task.step c.world).1, w'.hub, s'⟩ :: pa,
      by simp [hb, ha], ?_, ?_⟩
    · intro q hq
      rcases List.mem_append.mp hq with hq | hq
      · exact (hfit q (List.mem_append_left _ hq)).drift hd
      · rcases List.mem_cons.mp hq with rfl | hq
        · exact hf
        · exact (hfit q (by simp [hq])).drift hd
    · have := hG.moves hs (by simpa using hg) hm
      simpa using this
  | whole hw =>
    obtain ⟨hs', hd, hg⟩ := hG.whole hs hg hw
    exact ⟨hs', ps, htasks, fun p hp => (hfit p hp).drift hd, hg⟩

theorem Guards.reaches (hG : D.Guards T G) {c c' : Scene ι} (h : T.Reaches c c')
    (hc : D.TasksFit G c) : D.TasksFit G c' := by
  induction h with
  | refl => exact hc
  | tail _ hn ih => exact hG.next hn ih

theorem TasksFit.rest {c : Scene ι} (hc : D.TasksFit G c) (hq : c.Quiet) :
    ∃ ss, (∀ s ∈ ss, D.rest s) ∧ G c.world ss c.past := by
  obtain ⟨_, ps, htasks, hfit, hg⟩ := hc
  refine ⟨ps.map Worker.phase, ?_, hg⟩
  intro s hs
  obtain ⟨p, hp, rfl⟩ := List.mem_map.mp hs
  exact (hfit p hp).rest (hq p.task (htasks ▸ List.mem_map.mpr ⟨p, hp, rfl⟩))

end Discipline
end RhythmLobby
