import RhythmLobby.Proofs.Hub.Footprint

/-!
# What a task promises to the others

A `Discipline` says what a task may do, step by step, in terms of a phase that the task is in,
while others change memory under its hands.

* `Discipline.Keeps`      a task keeps to the discipline, from its phase on;
* `keeps_bind`            one task after another;
* `Worker.Fits.step`      each step of such a task is one that the discipline allows;
* `Worker.Fits.ends`      what every allowed step keeps holds after a task that runs alone.
-/

namespace RhythmLobby
open Cache

/-! ## Disciplines -/

/-- what tasks promise about their steps, each in one of the phases `σ` -/
structure Discipline (σ : Type) where
  /-- what memory is like at any moment -/
  sound : Hub → Prop
  /-- how memory may change while a task waits -/
  drift : Hub → Hub → Prop
  /-- one look at memory, with the phases before and after it -/
  turn : Hub → σ → Hub → σ → Prop
  /-- one effect, with the phases before and after it -/
  emit : Hub → σ → Effect → σ → Prop
  /-- the phases in which a task may end -/
  rest : σ → Prop
  turn_refl : ∀ h s, turn h s h s
  drift_refl : ∀ h, drift h h
  drift_trans : ∀ {h₁ h₂ h₃}, drift h₁ h₂ → drift h₂ h₃ → drift h₁ h₃
  sound_turn : ∀ {h h' s s'}, sound h → turn h s h' s' → sound h'
  drift_turn : ∀ {h h' s s'}, sound h → turn h s h' s' → drift h h'

namespace Discipline

variable {σ : Type}

/-- The task keeps to the discipline.  Memory was `h` when the task saw it last, and the task was
in the phase `s` then; at its end `Q` holds. -/
def Keeps (D : Discipline σ) {α : Type} (r : Routine α) (Q : α → Hub → σ → Prop) (h : Hub)
    (s : σ) : Prop :=
  match r with
  | .done x => Q x h s
  | .atomic act next => ∀ h₁, D.drift h h₁ → D.sound h₁ →
      ∃ s', D.turn h₁ s (act h₁).2 s' ∧ D.Keeps (next (act h₁).1) Q (act h₁).2 s'
  | .effect e next => ∀ h₁, D.drift h h₁ → D.sound h₁ →
      ∃ s', D.emit h₁ s e s' ∧ ∀ a, D.Keeps (next a) Q h₁ s'
  | .settle turn found next =>
    -- `J` is what holds whenever the loop looks at memory
    ∃ J : _ → Hub → σ → Prop, J found h s ∧
      ∀ found h s, J found h s → ∀ h₁, D.drift h h₁ → D.sound h₁ →
        match turn found h₁ with
        | .stop c => ∃ s', D.turn h₁ s h₁ s' ∧ D.Keeps (next c) Q h₁ s'
        | .look found' => ∃ s', D.turn h₁ s h₁ s' ∧ J found' h₁ s'
        | .update u found' => ∃ s', D.turn h₁ s h₁ s' ∧
            ∀ h₂, D.drift h₁ h₂ → D.sound h₂ →
              ∃ s'', D.emit h₂ s' (.update u) s'' ∧ J found' h₂ s''

variable {D : Discipline σ} {α β γ δ : Type}

/-- one task after another, where `Q` holds in between -/
theorem keeps_bind {r : Routine α} {f : α → Routine δ} {Q : α → Hub → σ → Prop}
    {Q' : δ → Hub → σ → Prop} {h : Hub} {s : σ} (hr : D.Keeps r Q h s)
    (hf : ∀ x h s, Q x h s → D.Keeps (f x) Q' h s) : D.Keeps (r.bind f) Q' h s := by
  induction r generalizing h s with
  | done x => exact hf x h s hr
  | atomic act next ih =>
    intro h₁ hd hs
    obtain ⟨s', ht, hn⟩ := hr h₁ hd hs
    exact ⟨s', ht, ih _ hn⟩
  | effect e next ih =>
    intro h₁ hd hs
    obtain ⟨s', ht, hn⟩ := hr h₁ hd hs
    exact ⟨s', ht, fun a => ih a (hn a)⟩
  | settle turn found next ih =>
    obtain ⟨J, hJ, hloop⟩ := hr
    refine ⟨J, hJ, fun found h s hj h₁ hd hs => ?_⟩
    have := hloop found h s hj h₁ hd hs
    split
    · rename_i c hc
      rw [hc] at this
      obtain ⟨s', ht, hn⟩ := this
      exact ⟨s', ht, ih _ hn⟩
    · rename_i found' hc
      rw [hc] at this
      exact this
    · rename_i u found' hc
      rw [hc] at this
      exact this

theorem keeps_mono {r : Routine α} {Q Q' : α → Hub → σ → Prop} {h : Hub} {s : σ}
    (hr : D.Keeps r Q h s) (hQ : ∀ x h s, Q x h s → Q' x h s) : D.Keeps r Q' h s := by
  have := keeps_bind (f := Routine.done) hr hQ
  rwa [Routine.done_bind] at this

/-! ## Single steps -/

theorem keeps_transact {act : Hub → β × Hub} {Q : β → Hub → σ → Prop} {h : Hub} {s : σ}
    (hr : ∀ h₁, D.drift h h₁ → D.sound h₁ →
      ∃ s', D.turn h₁ s (act h₁).2 s' ∧ Q (act h₁).1 (act h₁).2 s') :
    D.Keeps (Routine.transact act) Q h s := hr

theorem keeps_read {f : Hub → β} {Q : β → Hub → σ → Prop} {h : Hub} {s : σ}
    (hr : ∀ h₁, D.drift h h₁ → D.sound h₁ → ∃ s', D.turn h₁ s h₁ s' ∧ Q (f h₁) h₁ s') :
    D.Keeps (Routine.read f) Q h s := hr

theorem keeps_update {u : Update} {Q : Unit → Hub → σ → Prop} {h : Hub} {s : σ}
    (hr : ∀ h₁, D.drift h h₁ → D.sound h₁ → ∃ s', D.emit h₁ s (.update u) s' ∧ Q () h₁ s') :
    D.Keeps (Routine.update u) Q h s := by
  intro h₁ hd hs
  obtain ⟨s', he, hq⟩ := hr h₁ hd hs
  exact ⟨s', he, fun _ => hq⟩

theorem keeps_within {moves : Hub → Hub → Prop} {acts : Effect → Prop} {r : Routine α}
    (hr : r.Within moves acts) {s : σ} (hm : ∀ h h', D.sound h → moves h h' → D.turn h s h' s)
    (he : ∀ h e, D.sound h → acts e → D.emit h s e s) (h : Hub) :
    D.Keeps r (fun _ h' s' => D.drift h h' ∧ s' = s) h s := by
  suffices ∀ h₀, D.drift h₀ h → D.Keeps r (fun _ h' s' => D.drift h₀ h' ∧ s' = s) h s from
    this h (D.drift_refl h)
  induction r generalizing h with
  | done x => exact fun h₀ h₀d => ⟨h₀d, rfl⟩
  | atomic act next ih =>
    intro h₀ h₀d h₁ hd hs
    have ht := hm h₁ _ hs (hr.1 h₁)
    exact ⟨s, ht, ih _ (hr.2 _) _ _
      (D.drift_trans (D.drift_trans h₀d hd) (D.drift_turn hs ht))⟩
  | effect e next ih =>
    intro h₀ h₀d h₁ hd hs
    exact ⟨s, he h₁ e hs hr.1, fun a => ih a (hr.2 a) _ _ (D.drift_trans h₀d hd)⟩
  | settle turn found next ih =>
    intro h₀ h₀d
    refine ⟨fun _ h' s' => D.drift h₀ h' ∧ s' = s, ⟨h₀d, rfl⟩, ?_⟩
    intro found h s' hboth h₁ hd hs
    obtain ⟨h₀d, rfl⟩ := hboth
    have hd := D.drift_trans h₀d hd
    have ht := hr.1 found h₁
    split
    · rename_i c hc
      exact ⟨s', D.turn_refl h₁ s', ih c (hr.2 c) h₁ h₀ hd⟩
    · exact ⟨s', D.turn_refl h₁ s', hd, rfl⟩
    · rename_i u found' hc
      rw [hc] at ht
      exact ⟨s', D.turn_refl h₁ s', fun h₂ hd₂ hs₂ =>
        ⟨s', he h₂ _ hs₂ ht, D.drift_trans hd hd₂, rfl⟩⟩

/-! ## One step of one task -/

/-- a task at work, with what memory was when the task saw it last -/
structure Worker (σ : Type) where
  task : Routine Unit
  seen : Hub
  phase : σ

/-- the task keeps to the discipline to its end -/
def Worker.Fits (D : Discipline σ) (p : Worker σ) (h : Hub) : Prop :=
  D.drift p.seen h ∧ D.Keeps p.task (fun _ _ s => D.rest s) p.seen p.phase

/-- what one step does to the world and to the phase of the task -/
inductive Moves (D : Discipline σ) (w : World) (s : σ) : World → σ → Prop
  | turn {h : Hub} {s' : σ} : D.turn w.hub s h s' → Moves D w s { w with hub := h } s'
  | emit {e : Effect} {s' : σ} : D.emit w.hub s e s' → Moves D w s (e.perform w) s'

theorem Moves.sound {w w' : World} {s s' : σ} (hm : D.Moves w s w' s') (hs : D.sound w.hub) :
    D.sound w'.hub := by
  cases hm with
  | turn ht => exact D.sound_turn hs ht
  | emit he => rwa [Effect.perform_hub]

theorem Moves.drift {w w' : World} {s s' : σ} (hm : D.Moves w s w' s') (hs : D.sound w.hub) :
    D.drift w.hub w'.hub := by
  cases hm with
  | turn ht => exact D.drift_turn hs ht
  | emit he =>
    rw [Effect.perform_hub]
    exact D.drift_refl _

theorem Moves.reliable {w w' : World} {s s' : σ} (hm : D.Moves w s w' s') (hw : w.Reliable) :
    w'.Reliable := by
  cases hm with
  | turn ht => exact hw
  | emit he => exact World.reliable_perform hw _

theorem Worker.Fits.step {p : Worker σ} {w : World} (hp : p.Fits D w.hub) (hs : D.sound w.hub) :
    ∃ s', D.Moves w p.phase (p.task.step w).2 s' ∧
      (Worker.mk (p.task.step w).1 (p.task.step w).2.hub s').Fits D (p.task.step w).2.hub := by
  obtain ⟨task, seen, phase⟩ := p
  obtain ⟨hd, hk⟩ := hp
  cases task with
  | done x => exact ⟨phase, .turn (D.turn_refl _ _), D.drift_refl _, hk⟩
  | atomic act next =>
    obtain ⟨s', ht, hn⟩ := hk w.hub hd hs
    exact ⟨s', .turn ht, D.drift_refl _, hn⟩
  | effect e next =>
    obtain ⟨s', he, hn⟩ := hk w.hub hd hs
    refine ⟨s', .emit he, D.drift_refl _, ?_⟩
    show D.Keeps (next (e.answer w)) _ (e.perform w).hub s'
    rw [Effect.perform_hub]
    exact hn _
  | settle turn found next =>
    obtain ⟨J, hJ, hloop⟩ := hk
    have := hloop found seen phase hJ w.hub hd hs
    cases hc : turn found w.hub with
    | stop c =>
      rw [hc] at this
      obtain ⟨s', ht, hn⟩ := this
      refine ⟨s', ?_⟩
      simp only [Routine.step, hc]
      exact ⟨.turn ht, D.drift_refl _, hn⟩
    | look found' =>
      rw [hc] at this
      obtain ⟨s', ht, hj⟩ := this
      refine ⟨s', ?_⟩
      simp only [Routine.step, hc]
      exact ⟨.turn ht, D.drift_refl _, J, hj, hloop⟩
    | update u found' =>
      rw [hc] at this
      obtain ⟨s', ht, hn⟩ := this
      refine ⟨s', ?_⟩
      simp only [Routine.step, hc]
      refine ⟨.turn ht, D.drift_refl _, fun h₂ hd₂ hs₂ => ?_⟩
      obtain ⟨s'', he, hj⟩ := hn h₂ hd₂ hs₂
      exact ⟨s'', he, fun _ => ⟨J, hj, hloop⟩⟩

theorem Worker.Fits.ends {G : World → σ → Prop}
    (hG : ∀ {w s w' s'}, D.sound w.hub → G w s → D.Moves w s w' s' → G w' s') {p : Worker σ}
    {w w' : World} {x : Unit} (hp : p.Fits D w.hub) (hs : D.sound w.hub) (hg : G w p.phase)
    (h : p.task.Ends w x w') :
    ∃ s, D.rest s ∧ D.sound w'.hub ∧ D.drift w.hub w'.hub ∧ G w' s := by
  obtain ⟨fuel, h⟩ := h
  induction fuel generalizing p w with
  | zero =>
    obtain ⟨task, seen, phase⟩ := p
    cases task with
    | done y => cases h; exact ⟨phase, hp.2, hs, D.drift_refl _, hg⟩
    | atomic act next => cases h
    | effect e next => cases h
    | settle turn found next => cases h
  | succ fuel ih =>
    obtain ⟨s', hm, hp'⟩ := hp.step hs
    rw [Routine.run_step] at h
    obtain ⟨s, hrest, hs', hd, hg'⟩ := ih hp' (hm.sound hs) (hG hs hg hm) h
    exact ⟨s, hrest, hs', D.drift_trans (hm.drift hs) hd, hg'⟩

end Discipline
end RhythmLobby
