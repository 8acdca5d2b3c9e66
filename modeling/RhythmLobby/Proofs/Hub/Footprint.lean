import RhythmLobby.Proofs.Hub.Ending

/-!
# What a task keeps to

`r.Within moves acts` says that every look at memory of the task `r` changes memory as `moves`
allows, whatever it finds there, and that every effect of `r` is one of `acts`.

* `within_bind`       one task after another;
* `Within.induction`  what all these changes keep holds after the task if it held before;
* `Silent`            a task that keeps memory and the store as they are.
-/

namespace RhythmLobby.Routine
open Cache

variable {α β γ δ : Type} {moves : Hub → Hub → Prop} {acts : Effect → Prop}

/-- the effects of one round of a settling loop -/
def TurnWithin (acts : Effect → Prop) : Turn β γ → Prop
  | .stop _ => True
  | .look _ => True
  | .update u _ => acts (.update u)

/-- every step of the task keeps to what is allowed -/
def Within (moves : Hub → Hub → Prop) (acts : Effect → Prop) {α : Type} : Routine α → Prop
  | done _ => True
  | atomic act next => (∀ h, moves h (act h).2) ∧ ∀ b, (next b).Within moves acts
  | effect e next => acts e ∧ ∀ a, (next a).Within moves acts
  | settle turn _ next =>
    (∀ found h, TurnWithin acts (turn found h)) ∧ ∀ c, (next c).Within moves acts

theorem within_bind {r : Routine α} {f : α → Routine δ} (hr : r.Within moves acts)
    (hf : ∀ x, (f x).Within moves acts) : (r.bind f).Within moves acts := by
  induction r with
  | done x => exact hf x
  | atomic act next ih => exact ⟨hr.1, fun b => ih b (hr.2 b)⟩
  | effect e next ih => exact ⟨hr.1, fun a => ih a (hr.2 a)⟩
  | settle turn found next ih => exact ⟨hr.1, fun c => ih c (hr.2 c)⟩

theorem within_done (x : α) : (done x).Within moves acts := trivial

theorem within_transact {act : Hub → β × Hub} (h : ∀ h, moves h (act h).2) :
    (transact act).Within moves acts := ⟨h, fun _ => trivial⟩

theorem within_read (f : Hub → β) (h : ∀ h, moves h h) : (read f).Within moves acts :=
  ⟨h, fun _ => trivial⟩

theorem within_change {f : Hub → Hub} (h : ∀ h, moves h (f h)) : (change f).Within moves acts :=
  ⟨h, fun _ => trivial⟩

theorem within_emit {e : Effect} (h : acts e) : (emit e).Within moves acts :=
  ⟨h, fun _ => trivial⟩

theorem within_update {u : Update} (h : acts (.update u)) : (update u).Within moves acts :=
  within_bind (within_emit h) fun _ => within_done ()

theorem within_settling {turn : β → Hub → Turn β γ} (found : β)
    (h : ∀ found h, TurnWithin acts (turn found h)) : (settling turn found).Within moves acts :=
  ⟨h, fun _ => trivial⟩

theorem within_each {f : α → Routine Unit} {xs : List α}
    (h : ∀ x ∈ xs, (f x).Within moves acts) : (each f xs).Within moves acts := by
  induction xs with
  | nil => exact trivial
  | cons x xs ih =>
    exact within_bind (h x (List.mem_cons_self ..))
      fun _ => ih fun y hy => h y (List.mem_cons_of_mem _ hy)

theorem Within.mono {moves' : Hub → Hub → Prop} {acts' : Effect → Prop} {r : Routine α}
    (hr : r.Within moves acts) (hm : ∀ h h', moves h h' → moves' h h')
    (he : ∀ e, acts e → acts' e) : r.Within moves' acts' := by
  induction r with
  | done x => exact trivial
  | atomic act next ih => exact ⟨fun h => hm _ _ (hr.1 h), fun b => ih b (hr.2 b)⟩
  | effect e next ih => exact ⟨he e hr.1, fun a => ih a (hr.2 a)⟩
  | settle turn found next ih =>
    refine ⟨fun found h => ?_, fun c => ih c (hr.2 c)⟩
    have ht := hr.1 found h
    cases hc : turn found h with
    | stop c => exact trivial
    | look found' => exact trivial
    | update u found' =>
      rw [hc] at ht
      exact he _ ht

theorem Within.induction {P : World → Prop} {r : Routine α} (hr : r.Within moves acts)
    (hm : ∀ w h, P w → moves w.hub h → P { w with hub := h })
    (he : ∀ w e, P w → acts e → P (e.perform w)) {w w' : World} {x : α} (h : r.Ends w x w')
    (hw : P w) : P w' := by
  obtain ⟨fuel, h⟩ := h
  induction fuel generalizing r w with
  | zero =>
    cases r with
    | done y => cases h; exact hw
    | atomic act next => cases h
    | effect e next => cases h
    | settle turn found next => cases h
  | succ fuel ih =>
    cases r with
    | done y => cases h; exact hw
    | atomic act next => exact ih (hr.2 _) (hm w _ hw (hr.1 w.hub)) h
    | effect e next => exact ih (hr.2 _) (he w e hw hr.1) h
    | settle turn found next =>
      let loop := settle turn found next
      replace h : run fuel (loop.step w).1 (loop.step w).2 = some (x, w') := h
      rw [step] at h
      have ht := hr.1 found w.hub
      cases hc : turn found w.hub with
      | stop c =>
        rw [hc] at h
        exact ih (hr.2 c) hw h
      | look found' =>
        rw [hc] at h
        have hloop : (settle turn found' next).Within moves acts := hr
        exact ih hloop hw h
      | update u found' =>
        rw [hc] at h ht
        have hloop : ((update u).bind fun _ => settle turn found' next).Within moves acts :=
          within_bind (within_update ht) fun _ => hr
        exact ih hloop hw h

/-! ## Silent tasks -/

/-- memory stays as it is, and nothing reaches the store -/
def Silent (r : Routine α) : Prop := r.Within (fun h h' => h' = h) (fun e => e.call? = none)

theorem silent_read (f : Hub → β) : (read f).Silent := within_read f fun _ => rfl

theorem silent_emit {e : Effect} (h : e.call? = none) : (emit e).Silent := within_emit h

theorem Silent.ends {r : Routine α} (hr : r.Silent) {w w' : World} {x : α} (h : r.Ends w x w') :
    w'.hub = w.hub ∧ w'.cache = w.cache := by
  refine Within.induction (P := fun v => v.hub = w.hub ∧ v.cache = w.cache) hr ?_ ?_ h ⟨rfl, rfl⟩
  · intro v h hv heq
    subst heq
    exact hv
  · intro v e hv he
    rw [Effect.perform_hub, Effect.perform_cache he]
    exact hv

/-- a silent task keeps what depends on memory and the store only -/
theorem Silent.takes {r : Routine α} (hr : r.Silent) {P : World → Prop}
    (hP : ∀ w w', w'.hub = w.hub → w'.cache = w.cache → P w → P w') : r.Takes P fun _ => P := by
  intro w x w' hp h
  obtain ⟨hhub, hcache⟩ := hr.ends h
  exact hP w w' hhub hcache hp

end RhythmLobby.Routine
