import RhythmLobby.Proofs.Cache.Landing
import RhythmLobby.Hub.Routine

/-!
# How a task ends that runs alone

`r.Ends w x w'` says that the task `r`, started in the world `w` while no other task runs, comes to
its end with the result `x` and leaves the world `w'`.

* `ends_bind`                       one task after another;
* `ends_read` to `ends_update`      the single steps;
* `Ends.unique`                     a task that runs alone has one end at most;
* `Takes`                           what a task makes of worlds of some kind.
-/

namespace RhythmLobby.Routine
open Cache

variable {α β γ δ : Type}

/-- running alone from `w`, the task ends with `x` in the world `w'` -/
def Ends (r : Routine α) (w : World) (x : α) (w' : World) : Prop :=
  ∃ fuel, r.run fuel w = some (x, w')

/-! ## One step -/

theorem run_done (fuel : Nat) (x : α) (w : World) : (done x).run fuel w = some (x, w) := by
  cases fuel <;> rfl

theorem run_step (fuel : Nat) (r : Routine α) (w : World) :
    r.run (fuel + 1) w = (r.step w).1.run fuel (r.step w).2 := by
  cases r with
  | done x => exact (run_done fuel x w).symm
  | _ => rfl

@[simp] theorem ends_done {x y : α} {w w' : World} : (done x).Ends w y w' ↔ y = x ∧ w' = w := by
  constructor
  · intro hruns
    obtain ⟨fuel, h⟩ := hruns
    rw [run_done] at h
    cases h
    exact ⟨rfl, rfl⟩
  · intro hboth
    obtain ⟨rfl, rfl⟩ := hboth
    exact ⟨0, rfl⟩

@[simp] theorem ends_atomic {act : Hub → β × Hub} {next : β → Routine α} {w w' : World} {x : α} :
    (atomic act next).Ends w x w' ↔
      (next (act w.hub).1).Ends { w with hub := (act w.hub).2 } x w' := by
  constructor
  · intro hruns
    obtain ⟨fuel, h⟩ := hruns
    cases fuel with
    | zero => cases h
    | succ fuel => exact ⟨fuel, h⟩
  · intro hruns
    obtain ⟨fuel, h⟩ := hruns
    exact ⟨fuel + 1, h⟩

@[simp] theorem ends_effect {e : Effect} {next : e.Answer → Routine α} {w w' : World} {x : α} :
    (effect e next).Ends w x w' ↔ (next (e.answer w)).Ends (e.perform w) x w' := by
  constructor
  · intro hruns
    obtain ⟨fuel, h⟩ := hruns
    cases fuel with
    | zero => cases h
    | succ fuel => exact ⟨fuel, h⟩
  · intro hruns
    obtain ⟨fuel, h⟩ := hruns
    exact ⟨fuel + 1, h⟩

theorem ends_settle {turn : β → Hub → Turn β γ} {found : β} {next : γ → Routine α} {w w' : World}
    {x : α} : (settle turn found next).Ends w x w' ↔
      (((settle turn found next).step w).1).Ends ((settle turn found next).step w).2 x w' := by
  constructor
  · intro hruns
    obtain ⟨fuel, h⟩ := hruns
    cases fuel with
    | zero => cases h
    | succ fuel => exact ⟨fuel, h⟩
  · intro hruns
    obtain ⟨fuel, h⟩ := hruns
    exact ⟨fuel + 1, h⟩

/-! ## One task after another -/

theorem ends_of_bind (f : α → Routine δ) : ∀ (fuel : Nat) (r : Routine α) (w : World) (y : δ)
    (w' : World), (r.bind f).run fuel w = some (y, w') →
      ∃ x w₁, r.Ends w x w₁ ∧ (f x).Ends w₁ y w' := by
  intro fuel
  induction fuel with
  | zero =>
    intro r w y w' h
    cases r with
    | done x => exact ⟨x, w, ends_done.mpr ⟨rfl, rfl⟩, 0, h⟩
    | atomic act next => cases h
    | effect e next => cases h
    | settle turn found next => cases h
  | succ fuel ih =>
    intro r w y w' h
    cases r with
    | done x => exact ⟨x, w, ends_done.mpr ⟨rfl, rfl⟩, fuel + 1, h⟩
    | atomic act next =>
      obtain ⟨x, w₁, h₁, h₂⟩ := ih _ _ _ _ h
      exact ⟨x, w₁, ends_atomic.mpr h₁, h₂⟩
    | effect e next =>
      obtain ⟨x, w₁, h₁, h₂⟩ := ih _ _ _ _ h
      exact ⟨x, w₁, ends_effect.mpr h₁, h₂⟩
    | settle turn found next =>
      let loop := settle turn found fun c => (next c).bind f
      replace h : run fuel (loop.step w).1 (loop.step w).2 = some (y, w') := h
      rw [step] at h
      cases ht : turn found w.hub with
      | stop c =>
        rw [ht] at h
        obtain ⟨x, w₁, h₁, h₂⟩ := ih _ _ _ _ h
        exact ⟨x, w₁, ends_settle.mpr (by rw [step, ht]; exact h₁), h₂⟩
      | look found' =>
        rw [ht] at h
        obtain ⟨x, w₁, h₁, h₂⟩ := ih (settle turn found' next) _ _ _ h
        exact ⟨x, w₁, ends_settle.mpr (by rw [step, ht]; exact h₁), h₂⟩
      | update u found' =>
        rw [ht] at h
        obtain ⟨x, w₁, h₁, h₂⟩ := ih (effect (.update u) fun _ => settle turn found' next) _ _ _ h
        exact ⟨x, w₁, ends_settle.mpr (by rw [step, ht]; exact h₁), h₂⟩

theorem bind_ends {f : α → Routine δ} {x : α} {w₁ w' : World} {y : δ} (hf : (f x).Ends w₁ y w') :
    ∀ (fuel : Nat) (r : Routine α) (w : World), r.run fuel w = some (x, w₁) →
      (r.bind f).Ends w y w' := by
  intro fuel
  induction fuel with
  | zero =>
    intro r w h
    cases r with
    | done x => cases h; exact hf
    | atomic act next => cases h
    | effect e next => cases h
    | settle turn found next => cases h
  | succ fuel ih =>
    intro r w h
    cases r with
    | done x => cases h; exact hf
    | atomic act next => exact ends_atomic.mpr (ih _ _ h)
    | effect e next => exact ends_effect.mpr (ih _ _ h)
    | settle turn found next =>
      let loop := settle turn found next
      replace h : run fuel (loop.step w).1 (loop.step w).2 = some (x, w₁) := h
      rw [step] at h
      rw [bind, ends_settle, step]
      cases ht : turn found w.hub with
      | stop c =>
        rw [ht] at h
        exact ih _ _ h
      | look found' =>
        rw [ht] at h
        exact ih _ _ h
      | update u found' =>
        rw [ht] at h
        exact ih _ _ h

@[simp] theorem ends_bind {r : Routine α} {f : α → Routine δ} {w w' : World} {y : δ} :
    (r.bind f).Ends w y w' ↔ ∃ x w₁, r.Ends w x w₁ ∧ (f x).Ends w₁ y w' :=
  ⟨fun ⟨fuel, h⟩ => ends_of_bind f fuel r w y w' h,
    fun ⟨_, _, ⟨fuel, h⟩, hf⟩ => bind_ends hf fuel r w h⟩

/-! ## Single steps -/

@[simp] theorem ends_transact {act : Hub → β × Hub} {w w' : World} {x : β} :
    (transact act).Ends w x w' ↔ x = (act w.hub).1 ∧ w' = { w with hub := (act w.hub).2 } := by
  rw [transact, ends_atomic, ends_done]

@[simp] theorem ends_read {f : Hub → β} {w w' : World} {x : β} :
    (read f).Ends w x w' ↔ x = f w.hub ∧ w' = w := by
  rw [read, ends_atomic, ends_done]

@[simp] theorem ends_change {f : Hub → Hub} {w w' : World} {x : Unit} :
    (change f).Ends w x w' ↔ w' = { w with hub := f w.hub } := by
  rw [change, ends_atomic, ends_done]
  exact ⟨fun h => h.2, fun h => ⟨rfl, h⟩⟩

@[simp] theorem ends_emit {e : Effect} {w w' : World} {x : e.Answer} :
    (emit e).Ends w x w' ↔ x = e.answer w ∧ w' = e.perform w := by
  rw [emit, ends_effect, ends_done]

@[simp] theorem ends_update {u : Update} {w w' : World} {x : Unit} :
    (update u).Ends w x w' ↔ w' = w.update u := by
  rw [← done_bind (update u), update_bind, ends_effect, ends_done]
  exact ⟨fun h => h.2, fun h => ⟨rfl, h⟩⟩

theorem ends_settling_of_stop {turn : β → Hub → Turn β γ} {found : β} {w w' : World} {x c : γ}
    (h : turn found w.hub = .stop c) :
    (settling turn found).Ends w x w' ↔ x = c ∧ w' = w := by
  rw [settling, ends_settle, step, h, ends_done]

theorem ends_settling_of_look {turn : β → Hub → Turn β γ} {found found' : β} {w w' : World} {x : γ}
    (h : turn found w.hub = .look found') :
    (settling turn found).Ends w x w' ↔ (settling turn found').Ends w x w' := by
  rw [settling, ends_settle, step, h]
  rfl

theorem ends_settling_of_update {turn : β → Hub → Turn β γ} {found found' : β} {u : Update}
    {w w' : World} {x : γ} (h : turn found w.hub = .update u found') :
    (settling turn found).Ends w x w' ↔ (settling turn found').Ends (w.update u) x w' := by
  rw [settling, ends_settle, step, h]
  exact ends_effect

/-! ## Ends are unique -/

theorem run_succ {fuel : Nat} {r : Routine α} {w : World} {p : α × World}
    (h : r.run fuel w = some p) : r.run (fuel + 1) w = some p := by
  induction fuel generalizing r w with
  | zero =>
    cases r with
    | done x => exact h
    | atomic act next => cases h
    | effect e next => cases h
    | settle turn found next => cases h
  | succ fuel ih =>
    cases r with
    | done x => exact h
    | atomic act next => exact ih h
    | effect e next => exact ih h
    | settle turn found next => exact ih h

theorem run_add {fuel : Nat} {r : Routine α} {w : World} {p : α × World}
    (h : r.run fuel w = some p) (more : Nat) : r.run (fuel + more) w = some p := by
  induction more with
  | zero => exact h
  | succ more ih => exact run_succ ih

theorem Ends.unique {r : Routine α} {w w₁ w₂ : World} {x y : α} (h₁ : r.Ends w x w₁)
    (h₂ : r.Ends w y w₂) : x = y ∧ w₁ = w₂ := by
  obtain ⟨m, h₁⟩ := h₁
  obtain ⟨n, h₂⟩ := h₂
  have h₁ := run_add h₁ n
  have h₂ := run_add h₂ m
  rw [Nat.add_comm, h₁] at h₂
  cases h₂
  exact ⟨rfl, rfl⟩

/-- the world after a task that runs alone, if so many steps are enough for it -/
def after (r : Routine α) (fuel : Nat) (w : World) : World :=
  ((r.run fuel w).map Prod.snd).getD w

theorem ends_after {r : Routine α} {fuel : Nat} {w : World} {x : α}
    (h : (r.run fuel w).map Prod.fst = some x) : r.Ends w x (r.after fuel w) := by
  obtain ⟨⟨y, w'⟩, hrun, rfl⟩ := Option.map_eq_some_iff.mp h
  refine ⟨fuel, ?_⟩
  rw [after, hrun]
  rfl

/-! ## What a task makes of worlds of some kind -/

/-- if the task ends, it takes worlds with `P` to worlds with `Q` -/
def Takes (r : Routine α) (P : World → Prop) (Q : α → World → Prop) : Prop :=
  ∀ ⦃w x w'⦄, P w → r.Ends w x w' → Q x w'

variable {P : World → Prop}

theorem takes_bind {r : Routine α} {f : α → Routine δ} {Q : α → World → Prop}
    {R : δ → World → Prop} (hr : r.Takes P Q) (hf : ∀ x, (f x).Takes (Q x) R) :
    (r.bind f).Takes P R := by
  intro w y w' hp h
  obtain ⟨x, w₁, h₁, h₂⟩ := ends_bind.mp h
  exact hf x (hr hp h₁) h₂

theorem takes_done {Q : α → World → Prop} {x : α} (h : ∀ w, P w → Q x w) :
    (done x).Takes P Q := by
  intro w y w' hp hd
  obtain ⟨rfl, rfl⟩ := ends_done.mp hd
  exact h _ hp

theorem takes_transact {act : Hub → β × Hub} {Q : β → World → Prop}
    (h : ∀ w, P w → Q (act w.hub).1 { w with hub := (act w.hub).2 }) :
    (transact act).Takes P Q := by
  intro w y w' hp ht
  obtain ⟨rfl, rfl⟩ := ends_transact.mp ht
  exact h w hp

theorem takes_read {f : Hub → β} {Q : β → World → Prop} (h : ∀ w, P w → Q (f w.hub) w) :
    (read f).Takes P Q := by
  intro w y w' hp hr
  obtain ⟨rfl, rfl⟩ := ends_read.mp hr
  exact h _ hp

theorem takes_change {f : Hub → Hub} {Q : Unit → World → Prop}
    (h : ∀ w, P w → Q () { w with hub := f w.hub }) : (change f).Takes P Q := by
  intro w y w' hp hc
  rw [ends_change] at hc
  subst hc
  exact h w hp

theorem takes_update {u : Update} {Q : Unit → World → Prop} (h : ∀ w, P w → Q () (w.update u)) :
    (update u).Takes P Q := by
  intro w y w' hp hu
  rw [ends_update] at hu
  subst hu
  exact h w hp

theorem takes_each {f : α → Routine Unit} (hf : ∀ x, (f x).Takes P fun _ => P) (xs : List α) :
    (each f xs).Takes P fun _ => P := by
  induction xs with
  | nil => exact takes_done fun _ => id
  | cons x xs ih => exact takes_bind (hf x) fun _ => ih

/-- `J` is what holds whenever the loop looks at memory -/
theorem takes_settling {turn : β → Hub → Turn β γ} {found : β} {J : β → World → Prop}
    {Q : γ → World → Prop} (hJ : ∀ w, P w → J found w)
    (hloop : ∀ found w, J found w →
      match turn found w.hub with
      | .stop c => Q c w
      | .look found' => J found' w
      | .update u found' => J found' (w.update u)) : (settling turn found).Takes P Q := by
  intro w y w' hp hruns
  obtain ⟨fuel, h⟩ := hruns
  replace hp := hJ w hp
  clear hJ
  induction fuel using Nat.strongRecOn generalizing found w with
  | ind fuel ih =>
    have hround := hloop found w hp
    cases fuel with
    | zero => cases h
    | succ fuel =>
      replace h : run fuel ((settling turn found).step w).1 ((settling turn found).step w).2 =
        some (y, w') := h
      rw [settling, step] at h
      cases ht : turn found w.hub with
      | stop c =>
        rw [ht] at h hround
        rw [run_done] at h
        cases h
        exact hround
      | look found' =>
        rw [ht] at h hround
        exact ih fuel (Nat.lt_succ_self _) h hround
      | update u found' =>
        rw [ht] at h hround
        cases fuel with
        | zero => cases h
        | succ fuel =>
          exact ih fuel (by omega) h hround

end RhythmLobby.Routine
