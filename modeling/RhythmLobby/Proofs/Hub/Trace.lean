import RhythmLobby.Proofs.Hub.Footprint

/-!
# The effects of a task that runs alone

`r.Does w x w' es` says that the task `r`, started in the world `w` while no other task runs, has
the effects `es` one after another and ends with the result `x` in the world `w'`.

* `Ends.does`, `Does.ends`   every task that ends has some effects;
* `does_bind`                one task after another;
* `Within.effects`           the effects of a task that keeps to what is allowed;
* `Tells`                    what a task makes of memory, and what it tells meanwhile.
-/

namespace RhythmLobby.Routine
open Cache

variable {α β γ δ : Type}

/-- the effect that the next step of a task has, if it has one -/
def told : Routine α → List Effect
  | effect e _ => [e]
  | _ => []

/-- running alone from `w`, the task has these effects and ends with `x` in the world `w'` -/
inductive Does {α : Type} : Routine α → World → α → World → List Effect → Prop
  | done {x : α} {w : World} : Does (.done x) w x w []
  | step {r : Routine α} {w w' : World} {x : α} {es : List Effect} :
      Does (r.step w).1 (r.step w).2 x w' es → Does r w x w' (r.told ++ es)

/-! ## Effects and ends -/

theorem Does.ends {r : Routine α} {w w' : World} {x : α} {es : List Effect}
    (h : r.Does w x w' es) : r.Ends w x w' := by
  induction h with
  | done => exact ends_done.mpr ⟨rfl, rfl⟩
  | step _ ih =>
    obtain ⟨fuel, ih⟩ := ih
    exact ⟨fuel + 1, (run_step _ _ _).trans ih⟩

theorem Ends.does {r : Routine α} {w w' : World} {x : α} (h : r.Ends w x w') :
    ∃ es, r.Does w x w' es := by
  obtain ⟨fuel, h⟩ := h
  induction fuel generalizing r w with
  | zero =>
    cases r with
    | done y =>
      cases h
      exact ⟨[], .done⟩
    | _ => cases h
  | succ fuel ih =>
    rw [run_step] at h
    obtain ⟨es, hes⟩ := ih h
    exact ⟨_, .step hes⟩

/-! ## One task after another -/

theorem does_done {x y : α} {w w' : World} {es : List Effect} (h : (done x).Does w y w' es) :
    y = x ∧ w' = w ∧ es = [] := by
  generalize hr : done x = r at h
  induction h with
  | done =>
    cases hr
    exact ⟨rfl, rfl, rfl⟩
  | step _ ih =>
    subst hr
    exact ih rfl

/-- a task that runs alone has one end and one list of effects at most -/
theorem Does.unique {r : Routine α} {w w₁ w₂ : World} {x y : α} {es₁ es₂ : List Effect}
    (h₁ : r.Does w x w₁ es₁) (h₂ : r.Does w y w₂ es₂) : y = x ∧ w₂ = w₁ ∧ es₂ = es₁ := by
  induction h₁ generalizing es₂ with
  | done => exact does_done h₂
  | step h₁ ih =>
    cases h₂ with
    | done =>
      obtain ⟨rfl, rfl, rfl⟩ := does_done h₁
      exact ⟨rfl, rfl, rfl⟩
    | step h₂ =>
      obtain ⟨rfl, rfl, rfl⟩ := ih h₂
      exact ⟨rfl, rfl, rfl⟩

/-- as long as the first task has not ended, its steps are the steps of both -/
theorem step_bind {r : Routine α} {f : α → Routine δ} (w : World) (hr : ∀ x, r ≠ done x) :
    (r.bind f).told = r.told ∧ (r.bind f).step w = ((r.step w).1.bind f, (r.step w).2) := by
  cases r with
  | done x => exact absurd rfl (hr x)
  | atomic act next => exact ⟨rfl, rfl⟩
  | effect e next => exact ⟨rfl, rfl⟩
  | settle turn found next =>
    refine ⟨rfl, ?_⟩
    simp only [bind, step]
    cases turn found w.hub with
    | stop c => rfl
    | look found' => rfl
    | update u found' => rfl

theorem does_bind {r : Routine α} {f : α → Routine δ} {w w' : World} {y : δ} {es : List Effect}
    (h : (r.bind f).Does w y w' es) : ∃ es₁ es₂, es = es₁ ++ es₂ ∧
      ∃ x w₁, r.Does w x w₁ es₁ ∧ (f x).Does w₁ y w' es₂ := by
  by_cases hdone : ∃ x, r = done x
  · obtain ⟨x, rfl⟩ := hdone
    exact ⟨[], es, rfl, x, w, .done, h⟩
  generalize hb : r.bind f = b at h
  induction h generalizing r with
  | done =>
    cases r with
    | done x => exact absurd ⟨x, rfl⟩ hdone
    | _ => cases hb
  | @step _ w _ _ es hnext ih =>
    subst hb
    obtain ⟨htold, hstep⟩ := step_bind (f := f) w fun x hx => hdone ⟨x, hx⟩
    rw [hstep] at hnext ih
    rw [htold]
    by_cases hdone' : ∃ x, (r.step w).1 = done x
    · obtain ⟨x, hx⟩ := hdone'
      rw [hx] at hnext
      refine ⟨r.told, es, rfl, x, (r.step w).2, ?_, hnext⟩
      rw [← List.append_nil r.told]
      exact .step (hx ▸ .done)
    · obtain ⟨es₁, es₂, rfl, x, w₁, h₁, h₂⟩ := ih hdone' rfl
      exact ⟨r.told ++ es₁, es₂, (List.append_assoc _ _ _).symm, x, w₁, .step h₁, h₂⟩

/-! ## Single steps -/

theorem does_transact {act : Hub → β × Hub} {w w' : World} {x : β} {es : List Effect}
    (h : (transact act).Does w x w' es) :
    x = (act w.hub).1 ∧ w' = { w with hub := (act w.hub).2 } ∧ es = [] := by
  cases h with
  | step h => exact does_done h

theorem does_read {f : Hub → β} {w w' : World} {x : β} {es : List Effect}
    (h : (read f).Does w x w' es) : x = f w.hub ∧ w' = w ∧ es = [] := by
  cases h with
  | step h => exact does_done h

theorem change_does (f : Hub → Hub) (w : World) :
    (change f).Does w () { w with hub := f w.hub } [] := .step .done

theorem does_emit {e : Effect} {w w' : World} {x : e.Answer} {es : List Effect}
    (h : (emit e).Does w x w' es) : x = e.answer w ∧ w' = e.perform w ∧ es = [e] := by
  cases h with
  | step h =>
    obtain ⟨rfl, rfl, rfl⟩ := does_done h
    exact ⟨rfl, rfl, rfl⟩

theorem does_update {u : Update} {w w' : World} {x : Unit} {es : List Effect}
    (h : (update u).Does w x w' es) : w' = w.update u ∧ es = [.update u] := by
  obtain ⟨es₁, es₂, rfl, ok, w₁, h₁, h₂⟩ := does_bind h
  obtain ⟨rfl, rfl, rfl⟩ := does_emit h₁
  obtain ⟨-, rfl, rfl⟩ := does_done h₂
  exact ⟨rfl, rfl⟩

/-! ## A single step, and the rest -/

section Rest

variable {w w' : World} {y : δ} {es : List Effect}

theorem does_transact_bind {act : Hub → β × Hub} {f : β → Routine δ}
    (h : ((transact act).bind f).Does w y w' es) :
    (f (act w.hub).1).Does { w with hub := (act w.hub).2 } y w' es := by
  obtain ⟨es₁, es₂, rfl, x, w₁, h₁, h₂⟩ := does_bind h
  obtain ⟨rfl, rfl, rfl⟩ := does_transact h₁
  exact h₂

theorem does_read_bind {g : Hub → β} {f : β → Routine δ}
    (h : ((read g).bind f).Does w y w' es) : (f (g w.hub)).Does w y w' es := does_transact_bind h

theorem does_change_bind {g : Hub → Hub} {f : Unit → Routine δ}
    (h : ((change g).bind f).Does w y w' es) :
    (f ()).Does { w with hub := g w.hub } y w' es :=
  does_transact_bind h

theorem does_emit_bind {e : Effect} {f : e.Answer → Routine δ}
    (h : ((emit e).bind f).Does w y w' es) :
    ∃ rest, es = e :: rest ∧ (f (e.answer w)).Does (e.perform w) y w' rest := by
  obtain ⟨es₁, es₂, rfl, x, w₁, h₁, h₂⟩ := does_bind h
  obtain ⟨rfl, rfl, rfl⟩ := does_emit h₁
  exact ⟨es₂, rfl, h₂⟩

theorem does_answer {r : Routine α} {f : α → δ}
    (h : (r.bind fun x => done (f x)).Does w y w' es) : ∃ x, y = f x ∧ r.Does w x w' es := by
  obtain ⟨es₁, es₂, rfl, x, w₁, h₁, h₂⟩ := does_bind h
  obtain ⟨rfl, rfl, rfl⟩ := does_done h₂
  rw [List.append_nil]
  exact ⟨x, rfl, h₁⟩

end Rest

/-! ## What a task keeps to -/

section Within

variable {moves : Hub → Hub → Prop} {acts : Effect → Prop} {r : Routine α}

theorem Within.told (hr : r.Within moves acts) : ∀ e ∈ r.told, acts e := by
  cases r with
  | effect e next =>
    intro e' he
    rw [List.mem_singleton.mp he]
    exact hr.1
  | _ => exact fun _ he => absurd he List.not_mem_nil

theorem Within.step (hr : r.Within moves acts) (w : World) : (r.step w).1.Within moves acts := by
  cases r with
  | done x => exact hr
  | atomic act next => exact hr.2 _
  | effect e next => exact hr.2 _
  | settle turn found next =>
    have hacts := hr.1 found w.hub
    rw [Routine.step]
    split
    · exact hr.2 _
    · exact hr
    · rename_i u found' hturn
      rw [hturn] at hacts
      exact within_bind (within_update hacts) fun _ => hr

theorem Within.effects (hr : r.Within moves acts) {w w' : World} {x : α} {es : List Effect}
    (h : r.Does w x w' es) : ∀ e ∈ es, acts e := by
  induction h with
  | done => exact fun _ he => absurd he List.not_mem_nil
  | step _ ih =>
    intro e he
    rcases List.mem_append.mp he with he | he
    · exact hr.told e he
    · exact ih (hr.step _) e he

end Within

/-! ## What a task makes of memory, and what it tells meanwhile -/

/-- what may be said of memory and of effects, such that one thing may be said after another -/
structure Chained (T : Hub → List Effect → Hub → Prop) : Prop where
  nothing : ∀ h, T h [] h
  after : ∀ {h h₁ h₂ es es'}, T h es h₁ → T h₁ es' h₂ → T h (es ++ es') h₂

/-- if the task ends, it takes worlds with `P` to worlds with `Q`, and `T` holds of memory before,
of the effects and of memory afterwards -/
def Tells (r : Routine α) (P : World → Prop) (T : Hub → List Effect → Hub → Prop)
    (Q : α → World → Prop) : Prop :=
  ∀ ⦃w x w' es⦄, P w → r.Does w x w' es → Q x w' ∧ T w.hub es w'.hub

section Tells

variable {T : Hub → List Effect → Hub → Prop} {P : World → Prop}

theorem tells_bind (hT : Chained T) {r : Routine α} {f : α → Routine δ} {Q : α → World → Prop}
    {R : δ → World → Prop} (hr : r.Tells P T Q) (hf : ∀ x, (f x).Tells (Q x) T R) :
    (r.bind f).Tells P T R := by
  intro w y w' es hp h
  obtain ⟨es₁, es₂, rfl, x, w₁, h₁, h₂⟩ := does_bind h
  obtain ⟨hq, ht₁⟩ := hr hp h₁
  obtain ⟨hr, ht₂⟩ := hf x hq h₂
  exact ⟨hr, hT.after ht₁ ht₂⟩

theorem tells_done (hT : Chained T) {Q : α → World → Prop} {x : α} (h : ∀ w, P w → Q x w) :
    (done x).Tells P T Q := by
  intro w y w' es hp hd
  obtain ⟨rfl, rfl, rfl⟩ := does_done hd
  exact ⟨h _ hp, hT.nothing _⟩

theorem tells_read (hT : Chained T) (f : Hub → β) : (read f).Tells P T fun _ => P := by
  intro w y w' es hp hd
  obtain ⟨-, rfl, rfl⟩ := does_read hd
  exact ⟨hp, hT.nothing _⟩

theorem tells_each (hT : Chained T) {f : α → Routine Unit}
    (hf : ∀ x, (f x).Tells P T fun _ => P) (xs : List α) : (each f xs).Tells P T fun _ => P := by
  induction xs with
  | nil => exact tells_done hT fun _ => id
  | cons x xs ih => exact tells_bind hT (hf x) fun _ => ih

end Tells

end RhythmLobby.Routine
