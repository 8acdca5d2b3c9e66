import RhythmLobby.Proofs.Hub.Scene

/-!
# A record that several tasks write

A `Slot` is one record of the cache, with what memory says it should show.  Tasks change memory at
one moment and write the record later, so for a while the record may be wrong.  Then some task
still answers for it: it will write the record again, or it wrote last and will look at memory
once more.  What a task answers for is its `Duty`.

* `Slot.Duty.pledge`, `Slot.Duty.wrote`   a write to come, and a write that has landed;
* `Slot.discipline`                       no step gives up a duty before the record is right;
* `Slot.guarded_moves`                    the record is right, or some task answers for it;
* `Slot.clears_settling`                  a settling loop does its duty.
-/

namespace RhythmLobby
open Cache

/-- one record of the cache, and what memory says it should show -/
structure Slot where
  Value : Type
  key : String
  live : Hub → Value
  /-- the record is right for a value -/
  shows : Value → Option Record → Prop
  /-- what memory is like at any moment -/
  sound : Hub → Prop
  /-- how memory may change while a task waits -/
  drift : Hub → Hub → Prop
  drift_refl : ∀ h, drift h h
  drift_trans : ∀ {h₁ h₂ h₃}, drift h₁ h₂ → drift h₂ h₃ → drift h₁ h₃

namespace Slot

/-- for which value and which record a task still has to see to the record -/
def Duty (S : Slot) : Type := S.Value → Option Record → Prop

namespace Duty

variable {S : Slot}

def nothing : S.Duty := fun _ _ => False

/-- the record will be written if the value is such by then -/
def pledge (c : S.Value → Prop) : S.Duty := fun v _ => c v

/-- the record will be written -/
def owes : S.Duty := pledge fun _ => True

/-- this record was written, and memory will be looked at again -/
def wrote (x : Option Record) : S.Duty := fun _ r => r = x

/-- this record was written, and the value was such when memory was looked at -/
def wroteFor (x : Option Record) (c : S.Value → Prop) : S.Duty := fun v r => r = x ∧ c v

end Duty

/-- From a value and a record to others, a duty is handed on: either it is handed on to a later
step, or the record is right, or nothing happened and there was no duty. -/
def HandsOn (S : Slot) (v : S.Value) (r : Option Record) (d : S.Duty) (v' : S.Value)
    (r' : Option Record) (d' : S.Duty) : Prop :=
  d' v' r' ∨ S.shows v' r' ∨ (v' = v ∧ r' = r ∧ ¬ d v r)

/-- tasks that hand their duties on -/
def discipline (S : Slot) : Discipline S.Duty where
  sound := S.sound
  drift := S.drift
  turn h d h' d' := (S.sound h → S.sound h') ∧ S.drift h h' ∧
    ∀ r, S.HandsOn (S.live h) r d (S.live h') r d'
  emit h d e d' := ∀ r, S.HandsOn (S.live h) r d (S.live h) (e.leaves S.key r) d'
  rest d := d = Duty.nothing
  turn_refl h d := by
    refine ⟨id, S.drift_refl h, fun r => ?_⟩
    by_cases hd : d (S.live h) r
    · exact .inl hd
    · exact .inr (.inr ⟨rfl, rfl, hd⟩)
  drift_refl := S.drift_refl
  drift_trans := S.drift_trans
  sound_turn hs ht := ht.1 hs
  drift_turn _ ht := ht.2.1

variable {S : Slot}

/-! ## The record is right or answered for -/

/-- the store works, and the record is right or one of the duties is to see to it -/
def Guarded (S : Slot) (w : World) (ds : List S.Duty) : Prop :=
  w.Reliable ∧
    (S.shows (S.live w.hub) (w.record S.key) ∨ ∃ d ∈ ds, d (S.live w.hub) (w.record S.key))

theorem guarded_of_handsOn {v v' : S.Value} {r r' : Option Record} {d d' : S.Duty}
    {before after : List S.Duty} (hh : S.HandsOn v r d v' r' d')
    (hg : S.shows v r ∨ ∃ e ∈ before ++ d :: after, e v r) :
    S.shows v' r' ∨ ∃ e ∈ before ++ d' :: after, e v' r' := by
  rcases hh with hd | hs | ⟨rfl, rfl, hd⟩
  · exact .inr ⟨d', by simp, hd⟩
  · exact .inl hs
  · rcases hg with hs | ⟨e, he, hev⟩
    · exact .inl hs
    · rcases List.mem_append.mp he with he | he
      · exact .inr ⟨e, List.mem_append_left _ he, hev⟩
      · rcases List.mem_cons.mp he with rfl | he
        · exact absurd hev hd
        · exact .inr ⟨e, by simp [he], hev⟩

theorem guarded_moves {w w' : World} {before after : List S.Duty} {d d' : S.Duty}
    (hg : S.Guarded w (before ++ d :: after)) (hm : S.discipline.Moves w d w' d') :
    S.Guarded w' (before ++ d' :: after) := by
  refine ⟨hm.reliable hg.1, ?_⟩
  cases hm with
  | turn ht => exact guarded_of_handsOn (ht.2.2 _) hg.2
  | emit he =>
    rw [Effect.perform_hub, World.record_perform hg.1]
    exact guarded_of_handsOn (he _) hg.2

theorem Guarded.arrive {w : World} {ds : List S.Duty} (hg : S.Guarded w ds) (d : S.Duty) :
    S.Guarded w (ds ++ [d]) := by
  obtain ⟨hw, hs | ⟨e, he, hev⟩⟩ := hg
  · exact ⟨hw, .inl hs⟩
  · exact ⟨hw, .inr ⟨e, List.mem_append_left _ he, hev⟩⟩

theorem Guarded.shows {w : World} {ds : List S.Duty} (hg : S.Guarded w ds)
    (hd : ∀ d ∈ ds, S.discipline.rest d) : S.shows (S.live w.hub) (w.record S.key) := by
  rcases hg.2 with hs | ⟨d, hm, hdv⟩
  · exact hs
  · rw [hd d hm] at hdv
    exact hdv.elim

/-! ## Single steps -/

theorem turn_weaken {h : Hub} {d d' : S.Duty} (hd : ∀ r, d (S.live h) r → d' (S.live h) r) :
    S.discipline.turn h d h d' := by
  refine ⟨id, S.drift_refl h, fun r => ?_⟩
  by_cases hr : d (S.live h) r
  · exact .inl (hd r hr)
  · exact .inr (.inr ⟨rfl, rfl, hr⟩)

theorem turn_discharge {h : Hub} {d : S.Duty}
    (hd : ∀ r, d (S.live h) r → S.shows (S.live h) r) : S.discipline.turn h d h .nothing := by
  refine ⟨id, S.drift_refl h, fun r => ?_⟩
  by_cases hr : d (S.live h) r
  · exact .inr (.inl (hd r hr))
  · exact .inr (.inr ⟨rfl, rfl, hr⟩)

/-- effects that leave the record alone -/
def Untouched (key : String) (e : Effect) : Prop := ∀ r, e.leaves key r = r

theorem emit_untouched {h : Hub} {e : Effect} (he : Untouched S.key e) (d : S.Duty) :
    S.discipline.emit h d e d := by
  intro r
  rw [he r]
  exact (S.discipline.turn_refl h d).2.2 r

theorem emit_wrote {h : Hub} {e : Effect} {x : Option Record} (he : ∀ r, e.leaves S.key r = x)
    (d : S.Duty) : S.discipline.emit h d e (.wrote x) := fun r => .inl (he r)

theorem emit_shows {h : Hub} {e : Effect} {x : Option Record} (he : ∀ r, e.leaves S.key r = x)
    (hx : S.shows (S.live h) x) (d : S.Duty) : S.discipline.emit h d e .nothing := by
  intro r
  rw [he r]
  exact .inr (.inl hx)

/-- the value stays, or it is answered for from now on -/
theorem turn_begin {h h' : Hub} (hs : S.sound h → S.sound h') (hd : S.drift h h') {d : S.Duty}
    (hv : S.live h' = S.live h ∨ ∀ r, d (S.live h') r) : S.discipline.turn h .nothing h' d := by
  refine ⟨hs, hd, fun r => ?_⟩
  rcases hv with hv | hv
  · exact .inr (.inr ⟨hv, rfl, id⟩)
  · exact .inl (hv r)

/-! ## Tasks -/

variable {α β γ : Type}

/-- from its duty on, the task ends without one -/
def Clears (S : Slot) (r : Routine α) (h : Hub) (d : S.Duty) : Prop :=
  S.discipline.Keeps r (fun _ _ d' => d' = .nothing) h d

theorem clears_done {x : α} {h : Hub} : S.Clears (.done x) h .nothing := rfl

theorem Clears.bind {r : Routine α} {f : α → Routine β} {h : Hub} {d : S.Duty}
    (hr : S.Clears r h d) (hf : ∀ x h, S.Clears (f x) h .nothing) : S.Clears (r.bind f) h d := by
  apply Discipline.keeps_bind hr
  intro x h _ heq
  subst heq
  exact hf x h

theorem Clears.void {r : Routine α} {h : Hub} {d : S.Duty} (hr : S.Clears r h d) :
    S.Clears r.void h d :=
  Discipline.keeps_void hr

/-- the task leaves memory and a record alone -/
def Spares (key : String) (r : Routine α) : Prop :=
  r.Within (fun h h' => h' = h) (Untouched key)

theorem spares_update {u : Update} {key : String} (hu : ∀ r, u.call.leaves key r = r) :
    Spares key (Routine.update u) :=
  Routine.within_update hu

/-- a task that has nothing to do with the record keeps its duty -/
theorem keeps_elsewhere {r : Routine α} (hr : Spares S.key r) (h : Hub) (d : S.Duty) :
    S.discipline.Keeps r (fun _ h' d' => S.drift h h' ∧ d' = d) h d := by
  refine Discipline.keeps_within hr ?_ (fun _ _ _ he => emit_untouched he d) h
  intro h₁ h₂ _ heq
  subst heq
  exact S.discipline.turn_refl _ d

theorem clears_elsewhere {r : Routine α} (hr : Spares S.key r) (h : Hub) :
    S.Clears r h .nothing :=
  Discipline.keeps_mono (keeps_elsewhere hr h .nothing) fun _ _ _ hd => hd.2

theorem keeps_write {u : Update} {x : Option Record} (hu : ∀ r, u.call.leaves S.key r = x)
    (h : Hub) (d : S.Duty) :
    S.discipline.Keeps (Routine.update u) (fun _ _ d' => d' = .wrote x) h d :=
  Discipline.keeps_update fun _ _ _ => ⟨_, emit_wrote (e := .update u) hu d, rfl⟩

theorem clears_write {u : Update} {x : Option Record} (hu : ∀ r, u.call.leaves S.key r = x)
    {h : Hub} (hx : ∀ h', S.drift h h' → S.shows (S.live h') x) (d : S.Duty) :
    S.Clears (Routine.update u) h d :=
  Discipline.keeps_update fun _ hd _ => ⟨_, emit_shows (e := .update u) hu (hx _ hd) d, rfl⟩

/-- A loop that stops only when the record written last is right, and otherwise writes it again,
does its duty. -/
theorem clears_settling {turn : β → Hub → Turn β γ} (written : β → Option Record)
    (hturn : ∀ found h, (∃ c, turn found h = .stop c ∧ S.shows (S.live h) (written found)) ∨
      ∃ u found', turn found h = .update u found' ∧ ∀ r, u.call.leaves S.key r = written found')
    (found : β) (h : Hub) :
    S.Clears (Routine.settling turn found) h (.wrote (written found)) := by
  refine ⟨fun found _ d => d = .wrote (written found), rfl, ?_⟩
  intro found _ _ heq h₁ _ _
  subst heq
  rcases hturn found h₁ with ⟨c, hc, hshows⟩ | ⟨u, found', hc, hu⟩
  · rw [hc]
    refine ⟨.nothing, turn_discharge fun r hr => ?_, rfl⟩
    rw [hr]
    exact hshows
  · rw [hc]
    exact ⟨_, S.discipline.turn_refl h₁ _, fun h₂ _ _ =>
      ⟨.wrote (written found'), emit_wrote (e := .update u) hu _, rfl⟩⟩

/-- a task that runs alone and leaves no duty behind leaves the record right -/
theorem Clears.ends {r : Routine α} {w w' : World} {x : α} (hr : S.Clears r w.hub .nothing)
    (hs : S.sound w.hub) (hw : w.Reliable) (hshows : S.shows (S.live w.hub) (w.record S.key))
    (h : r.Ends w x w') : S.sound w'.hub ∧ S.drift w.hub w'.hub ∧ w'.Reliable ∧
      S.shows (S.live w'.hub) (w'.record S.key) := by
  have hvoid : r.void.Ends w () w' :=
    Routine.ends_bind.mpr ⟨x, w', h, Routine.ends_done.mpr ⟨rfl, rfl⟩⟩
  have hfits : (Discipline.Worker.mk r.void w.hub .nothing).Fits S.discipline w.hub :=
    ⟨S.drift_refl _, hr.void⟩
  obtain ⟨d, hrest, hs', hd, hg⟩ := hfits.ends (G := fun w d => S.Guarded w ([] ++ [d]))
    (fun _ hg hm => guarded_moves hg hm) hs ⟨hw, .inl hshows⟩ hvoid
  refine ⟨hs', hd, hg.1, hg.shows fun d' hd' => ?_⟩
  rw [List.nil_append, List.mem_singleton] at hd'
  exact hd' ▸ hrest

end Slot
end RhythmLobby
