import RhythmLobby.Proofs.Hub.Ending

/-!
# Tasks that come to an end

A task that runs alone may only fail to end in a settling loop.

* `Routine.Halts`      the task ends, whatever the cache and the lines are like;
* `halts_settling`     loops that have nothing left to do after one update at most.
-/

namespace RhythmLobby.Routine

variable {α β γ δ : Type} {P : Hub → Prop}

/-- if memory has `P`, the task ends when it runs alone, and memory has `P` again -/
def Halts (r : Routine α) (P : Hub → Prop) : Prop :=
  ∀ w : World, P w.hub → ∃ x w', r.Ends w x w' ∧ P w'.hub

theorem halts_done (x : α) : (done x).Halts P := by
  intro w hw
  exact ⟨x, w, ends_done.mpr ⟨rfl, rfl⟩, hw⟩

theorem Halts.after {r : Routine α} {f : α → Routine δ} {w w₁ : World} {x : α}
    (h : r.Ends w x w₁) (hw : P w₁.hub) (hf : (f x).Halts P) :
    ∃ y w', (r.bind f).Ends w y w' ∧ P w'.hub := by
  obtain ⟨y, w', h', hw'⟩ := hf w₁ hw
  exact ⟨y, w', ends_bind.mpr ⟨x, w₁, h, h'⟩, hw'⟩

theorem halts_bind {r : Routine α} {f : α → Routine δ} (hr : r.Halts P)
    (hf : ∀ x, (f x).Halts P) : (r.bind f).Halts P := by
  intro w hw
  obtain ⟨x, w₁, h₁, hw₁⟩ := hr w hw
  exact Halts.after h₁ hw₁ (hf x)

theorem halts_transact {act : Hub → β × Hub} (h : ∀ m, P m → P (act m).2) :
    (transact act).Halts P := by
  intro w hw
  exact ⟨_, _, ends_transact.mpr ⟨rfl, rfl⟩, h w.hub hw⟩

theorem halts_read (f : Hub → β) : (read f).Halts P := by
  intro w hw
  exact ⟨_, _, ends_read.mpr ⟨rfl, rfl⟩, hw⟩

theorem halts_change {f : Hub → Hub} (h : ∀ m, P m → P (f m)) : (change f).Halts P := by
  intro w hw
  exact ⟨(), _, ends_change.mpr rfl, h w.hub hw⟩

theorem halts_emit (e : Effect) : (emit e).Halts P := by
  intro w hw
  refine ⟨_, _, ends_emit.mpr ⟨rfl, rfl⟩, ?_⟩
  rw [Effect.perform_hub]
  exact hw

theorem halts_update (u : Cache.Update) : (update u).Halts P :=
  halts_bind (halts_emit (.update u)) fun _ => halts_done ()

theorem halts_each {f : α → Routine Unit} (hf : ∀ x, (f x).Halts P) (xs : List α) :
    (each f xs).Halts P := by
  induction xs with
  | nil => exact halts_done ()
  | cons x xs ih => exact halts_bind (hf x) fun _ => ih

theorem halts_settling {turn : β → Hub → Turn β γ}
    (h : ∀ found m, P m → (∃ c, turn found m = .stop c) ∨
      ∃ u found' c, turn found m = .update u found' ∧ turn found' m = .stop c) (found : β) :
    (settling turn found).Halts P := by
  intro w hw
  rcases h found w.hub hw with ⟨c, hstop⟩ | ⟨u, found', c, hupdate, hstop⟩
  · exact ⟨c, w, (ends_settling_of_stop hstop).mpr ⟨rfl, rfl⟩, hw⟩
  · have hhub : (w.update u).hub = w.hub := w.update_hub u
    have hstop' : turn found' (w.update u).hub = .stop c := by rw [hhub]; exact hstop
    refine ⟨c, w.update u, ?_, by rw [hhub]; exact hw⟩
    rw [ends_settling_of_update hupdate]
    exact (ends_settling_of_stop hstop').mpr ⟨rfl, rfl⟩

end RhythmLobby.Routine
