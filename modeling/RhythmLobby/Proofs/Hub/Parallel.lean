import RhythmLobby.Proofs.Hub.Outside

/-!
# Tasks that go on in parallel

Let `image` turn one memory into another one.  Two tasks are parallel if the second does in the
image of memory what the first does in memory, whatever either is told of its effects: it finds out
the same, has the same effects, and leaves the image behind.

* `World.imaged`            the same surroundings, with the image in memory;
* `Routine.Parallel`        two tasks that do the same, each in its own memory;
* `Parallel.drop`           tasks whose results are not passed on;
* `Parallel.does`           the second ends as the first one does;
* `Parallel.does_only`      and only where the first one ends;
* `Routine.Oblivious`       a task that goes on in the same way whatever it is told of its effects;
* `Oblivious.does`          such a task does the same amid changes from outside as alone.
-/

namespace RhythmLobby

/-! ## Effects -/

namespace World

/-- the same surroundings, with another memory -/
def withHub (w : World) (h : Hub) : World := { w with hub := h }

theorem update_withHub (w : World) (h : Hub) (u : Cache.Update) :
    (w.withHub h).update u = (w.update u).withHub h := by
  unfold update
  split
  rename_i ok cache hcall
  rw [show w.cache.call u.call = (ok, cache) from hcall]
  cases ok <;> rfl

theorem write_withHub (w : World) (h : Hub) (p : ServerPacket) (line : Nat) :
    (w.withHub h).write p line = (w.write p line).map (·.withHub h) := by
  unfold write
  cases hline : w.lines[line]? with
  | none => simp [withHub, hline, Except.map]
  | some l => cases hw : l.write p <;> simp [withHub, hline, hw, Except.map]

theorem deliver_withHub (w : World) (h : Hub) (p : ServerPacket) (s : Session) :
    (w.withHub h).deliver p s = ((w.deliver p s).1, (w.deliver p s).2.withHub h) := by
  unfold deliver
  rw [write_withHub]
  cases w.write p s.line <;> rfl

theorem deliverEach_withHub (p : ServerPacket) (sessions : List Session) (w : World) (h : Hub) :
    (w.withHub h).deliverEach p sessions =
      ((w.deliverEach p sessions).1, (w.deliverEach p sessions).2.withHub h) := by
  induction sessions generalizing w with
  | nil => rfl
  | cons s rest ih => simp only [deliverEach, deliver_withHub, ih]

theorem fanOut_withHub (w : World) (h : Hub) (p : ServerPacket) (sessions : List Session) :
    (w.withHub h).fanOut p sessions =
      ((w.fanOut p sessions).1, (w.fanOut p sessions).2.withHub h) := by
  unfold fanOut
  split
  · rfl
  · simp only [deliverEach_withHub]
    rfl

theorem offer_withHub (w : World) (h : Hub) (p : ServerPacket) (line : Nat) :
    (w.withHub h).offer p line = (w.offer p line).withHub h := by
  unfold offer
  rw [write_withHub]
  cases w.write p line <;> rfl

end World

theorem Effect.perform_withHub (e : Effect) (w : World) (h : Hub) :
    e.perform (w.withHub h) = (e.perform w).withHub h := by
  cases e with
  | update u => exact w.update_withHub h u
  | deliver p s => exact congrArg Prod.snd (w.deliver_withHub h p s)
  | fanOut p sessions => exact congrArg Prod.snd (w.fanOut_withHub h p sessions)
  | offer p line => exact w.offer_withHub h p line
  | _ => rfl

/-- the same surroundings, with the image in memory -/
def World.imaged (image : Hub → Hub) (w : World) : World := w.withHub (image w.hub)

namespace Routine

variable {α β γ δ : Type} {image : Hub → Hub}

/-! ## Parallel tasks -/

/-- the second task does in the image of memory what the first one does in memory -/
inductive Parallel (image : Hub → Hub) {α : Type} : Routine α → Routine α → Prop
  | done (x : α) : Parallel image (.done x) (.done x)
  | atomic {β : Type} {act act' : Hub → β × Hub} {next next' : β → Routine α}
      (hact : ∀ h, act' (image h) = ((act h).1, image (act h).2))
      (hnext : ∀ b, Parallel image (next b) (next' b)) :
      Parallel image (.atomic act next) (.atomic act' next')
  | effect (e : Effect) {next next' : e.Answer → Routine α}
      (hnext : ∀ a a', Parallel image (next a) (next' a')) :
      Parallel image (.effect e next) (.effect e next')
  | settle {β γ : Type} {turn turn' : β → Hub → Turn β γ} (found : β) {next next' : γ → Routine α}
      (hturn : ∀ found h, turn' found (image h) = turn found h)
      (hnext : ∀ c, Parallel image (next c) (next' c)) :
      Parallel image (.settle turn found next) (.settle turn' found next')

theorem Parallel.bind {r r' : Routine α} {f f' : α → Routine δ} (hr : Parallel image r r')
    (hf : ∀ x, Parallel image (f x) (f' x)) : Parallel image (r.bind f) (r'.bind f') := by
  induction hr with
  | done x => exact hf x
  | atomic hact _ ih => exact .atomic hact ih
  | effect e _ ih => exact .effect e ih
  | settle found hturn _ ih => exact .settle found hturn ih

/-! ## Results that are not passed on -/

theorem Parallel.drop {r : Routine α} {r' : Routine β} {g g' : Routine δ}
    (hr : Parallel image r.void r'.void) (hg : Parallel image g g') :
    Parallel image (r.bind fun _ => g) (r'.bind fun _ => g') := by
  rw [← void_bind r, ← void_bind r']
  exact hr.bind fun _ => hg

theorem Parallel.void {r r' : Routine α} (hr : Parallel image r r') :
    Parallel image r.void r'.void := hr.bind fun _ => .done ()

theorem Parallel.bind_void {r r' : Routine α} {f f' : α → Routine δ} (hr : Parallel image r r')
    (hf : ∀ x, Parallel image (f x).void (f' x).void) :
    Parallel image (r.bind f).void (r'.bind f').void := by
  rw [Routine.bind_void, Routine.bind_void]
  exact hr.bind hf

/-! ## Single steps -/

theorem parallel_transact {act act' : Hub → β × Hub}
    (h : ∀ m, act' (image m) = ((act m).1, image (act m).2)) :
    Parallel image (transact act) (transact act') := .atomic h .done

theorem parallel_read {f f' : Hub → β} (h : ∀ m, f' (image m) = f m) :
    Parallel image (read f) (read f') :=
  .atomic (fun m => by rw [h]) .done

theorem parallel_change {f f' : Hub → Hub} (h : ∀ m, f' (image m) = image (f m)) :
    Parallel image (change f) (change f') :=
  .atomic (fun m => by rw [h]) .done

theorem parallel_emit (e : Effect) : Parallel image (emit e).void (emit e).void :=
  .effect e fun _ _ => .done ()

theorem parallel_tell (e : Effect) [Subsingleton e.Answer] :
    Parallel image (emit e) (emit e) := by
  refine .effect e fun a a' => ?_
  rw [Subsingleton.elim a' a]
  exact .done a

theorem parallel_update (u : Cache.Update) : Parallel image (update u) (update u) :=
  parallel_emit (.update u)

theorem parallel_settling {turn turn' : β → Hub → Turn β γ}
    (h : ∀ found m, turn' found (image m) = turn found m) (found : β) :
    Parallel image (settling turn found) (settling turn' found) := .settle found h .done

theorem parallel_each {f f' : α → Routine Unit} (hf : ∀ x, Parallel image (f x) (f' x))
    (xs : List α) : Parallel image (each f xs) (each f' xs) := by
  induction xs with
  | nil => exact .done ()
  | cons x xs ih => exact (hf x).bind fun _ => ih

/-! ## Running -/

variable {r r' : Routine α} {w v : World} {x : α} {es : List Effect}

theorem Parallel.step (h : Parallel image r r') {w v : World} (hv : v.hub = image w.hub) :
    Parallel image (r.step w).1 (r'.step v).1 ∧ (r'.step v).2.hub = image (r.step w).2.hub ∧
      r'.told = r.told := by
  cases h with
  | done x => exact ⟨.done x, hv, rfl⟩
  | atomic hact hnext =>
    simp only [Routine.step, hv, hact]
    exact ⟨hnext _, trivial, rfl⟩
  | effect e hnext =>
    refine ⟨hnext _ _, ?_, rfl⟩
    simp only [Routine.step, Effect.perform_hub, hv]
  | @settle β γ turn turn' found next next' hturn hnext =>
    simp only [Routine.step, hv, hturn]
    cases turn found w.hub with
    | stop c => exact ⟨hnext c, hv, rfl⟩
    | look found' => exact ⟨.settle found' hturn hnext, hv, rfl⟩
    | update u found' =>
      exact ⟨(parallel_update u).bind fun _ => .settle found' hturn hnext, hv, rfl⟩

/-- in the same surroundings the step leaves the same behind -/
theorem Parallel.step_imaged (h : Parallel image r r') (w : World) :
    (r'.step (w.imaged image)).2 = (r.step w).2.imaged image := by
  cases h with
  | done x => rfl
  | @atomic β act act' next next' hact hnext =>
    have hact : act' (w.imaged image).hub = _ := hact w.hub
    simp only [Routine.step, hact]
    rfl
  | effect e hnext =>
    simp only [Routine.step, World.imaged, Effect.perform_withHub, Effect.perform_hub]
  | @settle β γ turn turn' found next next' hturn hnext =>
    have hturn' : turn' found (w.imaged image).hub = turn found w.hub := hturn found w.hub
    simp only [Routine.step, hturn']
    cases turn found w.hub with
    | stop c => rfl
    | look found' => rfl
    | update u found' => rfl

/-- where the first task ends, the second one ends with the same result, after the same effects,
and with the image in memory -/
theorem Parallel.does (hr : Parallel image r r') (h : r.Does w x v es) :
    r'.Does (w.imaged image) x (v.imaged image) es := by
  induction h generalizing r' with
  | done =>
    cases hr
    exact .done
  | @step r w _ _ _ _ ih =>
    obtain ⟨hnext, -, htold⟩ := hr.step (v := w.imaged image) rfl
    have hrest := ih hnext
    rw [← hr.step_imaged] at hrest
    rw [← htold]
    exact .step hrest

theorem Parallel.does_only (hr : Parallel image r r') {w' v' : World} (hw : w' = w.imaged image)
    (h : r'.Does w' x v' es) : ∃ v, r.Does w x v es ∧ v' = v.imaged image := by
  induction h generalizing r w with
  | done =>
    cases hr
    exact ⟨w, .done, hw⟩
  | @step r' w' _ _ _ _ ih =>
    subst hw
    obtain ⟨hnext, -, htold⟩ := hr.step (v := w.imaged image) rfl
    obtain ⟨v, hdoes, hv⟩ := ih hnext (hr.step_imaged w)
    exact ⟨v, htold ▸ .step hdoes, hv⟩

/-! ## Oblivious tasks -/

/-- the task goes on in the same way whatever it is told of its effects -/
def Oblivious (r : Routine α) : Prop := Parallel id r r

/-- Amid changes from outside an oblivious task has the same effects as alone, and leaves memory the
same. -/
theorem Oblivious.does {out : Outside} (hr : r.Oblivious) (h : r.DoesAmid out w x v es) {w₁ : World}
    (hw : w₁.hub = w.hub) : ∃ v₁, r.Does w₁ x v₁ es ∧ v₁.hub = v.hub := by
  -- the task at work in the second world is another one as soon as an effect has answered
  suffices ∀ r₁ : Routine α, Parallel id r r₁ → ∀ w₁ : World, w₁.hub = w.hub →
      ∃ v₁, r₁.Does w₁ x v₁ es ∧ v₁.hub = v.hub from this r hr w₁ hw
  clear hr hw w₁
  induction h with
  | done =>
    intro r₁ hr w₁ hw
    cases hr
    exact ⟨w₁, .done, hw⟩
  | step _ ih =>
    intro r₁ hr w₁ hw
    obtain ⟨hnext, hhub, htold⟩ := hr.step hw
    obtain ⟨v₁, hdoes, hv⟩ := ih _ hnext _ hhub
    exact ⟨v₁, htold ▸ .step hdoes, hv⟩
  | outside hchange _ ih =>
    intro r₁ hr w₁ hw
    exact ih r₁ hr w₁ (hw.trans (out.memory hchange).symm)

end Routine
end RhythmLobby
