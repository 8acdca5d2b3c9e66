import RhythmLobby.Proofs.Hub.Hearing

/-!
# Tasks amid changes from outside

Between two steps of a task the store may fail or recover, and so may lines.
`r.DoesAmid out w x w' es` says that the task `r`, started in the world `w`, has the effects `es`
and ends with `x` in the world `w'`, where the changes `out` may happen at any time in between.

* `Outside`                 which changes there may be, none of them in memory;
* `Outside.sparing`         all changes that leave some lines as they are and open none again;
* `Outside.keepingStore`    all changes of lines and counts;
* `DoesAmid.spared_line`    a line that is left as it is takes what it hears;
* `DoesAmid.closed_line`    which lines are closed afterwards;
* `DoesAmid.cache`          the store after calls none of which was disturbed.
-/

namespace RhythmLobby
open Cache

/-! ## Changes from outside -/

/-- which changes there may be outside of the server's memory -/
structure Outside where
  change : World → World → Prop
  memory : ∀ {w v : World}, change w v → v.hub = w.hub

/-- memory and the steady lines stay as they are, and what is closed stays closed -/
structure World.Spares (steady : Nat → Prop) (w v : World) : Prop where
  memory : v.hub = w.hub
  lines : ∀ n, steady n → v.lines[n]? = w.lines[n]?
  closed : ∀ (n : Nat) (l : Line), w.lines[n]? = some l →
    ∃ l', v.lines[n]? = some l' ∧ l'.closed = l.closed

namespace Outside

def none : Outside := ⟨fun _ _ => False, False.elim⟩

def sparing (steady : Nat → Prop) : Outside := ⟨World.Spares steady, World.Spares.memory⟩

def keepingStore : Outside := ⟨fun w v => v.hub = w.hub ∧ v.cache = w.cache, And.left⟩

/-- no change touches the store -/
def KeepsStore (out : Outside) : Prop := ∀ w v, out.change w v → v.cache = w.cache

/-- the changes that are among both -/
def both (out out' : Outside) : Outside :=
  ⟨fun w v => out.change w v ∧ out'.change w v, fun h => out.memory h.1⟩

end Outside

/-! ## The store after some calls -/

/-- a store that has been asked for some things, one after another -/
def Cache.Journal.after (j : Journal) (calls : List Call) : Journal :=
  calls.foldl (fun j c => (j.call c).2) j

/-- the calls on the store among some effects -/
def callsAmong (es : List Effect) : List Call := es.filterMap Effect.call?

theorem Cache.Journal.after_append (j : Journal) (calls calls' : List Call) :
    j.after (calls ++ calls') = (j.after calls).after calls' := List.foldl_append

theorem callsAmong_append (es es' : List Effect) :
    callsAmong (es ++ es') = callsAmong es ++ callsAmong es' := List.filterMap_append

theorem Effect.cache_perform (e : Effect) (w : World) :
    (e.perform w).cache = w.cache.after (callsAmong [e]) := by
  cases e with
  | update u => exact w.update_cache u
  | _ => exact Effect.perform_cache rfl w

namespace Routine

variable {α : Type} {out out' : Outside} {steady : Nat → Prop}

/-- the task has these effects and ends with `x` in the world `w'`, amid changes from outside -/
inductive DoesAmid (out : Outside) {α : Type} :
    Routine α → World → α → World → List Effect → Prop
  | done {x : α} {w : World} : DoesAmid out (.done x) w x w []
  | step {r : Routine α} {w w' : World} {x : α} {es : List Effect} :
      DoesAmid out (r.step w).1 (r.step w).2 x w' es → DoesAmid out r w x w' (r.told ++ es)
  | outside {r : Routine α} {w v w' : World} {x : α} {es : List Effect} : out.change w v →
      DoesAmid out r v x w' es → DoesAmid out r w x w' es

variable {r : Routine α} {w w' v : World} {x : α} {es : List Effect}

theorem Does.amid (h : r.Does w x w' es) : r.DoesAmid out w x w' es := by
  induction h with
  | done => exact .done
  | step _ ih => exact .step ih

theorem Ends.amid (h : r.Ends w x w') : ∃ es, r.DoesAmid out w x w' es := by
  obtain ⟨es, hes⟩ := h.does
  exact ⟨es, hes.amid⟩

theorem DoesAmid.mono (h : r.DoesAmid out w x w' es)
    (hout : ∀ w v, out.change w v → out'.change w v) : r.DoesAmid out' w x w' es := by
  induction h with
  | done => exact .done
  | step _ ih => exact .step ih
  | outside hchange _ ih => exact .outside (hout _ _ hchange) ih

theorem DoesAmid.alone (h : r.DoesAmid .none w x w' es) : r.Does w x w' es := by
  induction h with
  | done => exact .done
  | step _ ih => exact .step ih
  | outside hchange => exact hchange.elim

/-! ## Lines -/

theorem step_line (r : Routine α) (w : World) (n : Nat) : (r.step w).2.lines[n]? =
    w.lines[n]?.map fun l => (heardAt n r.told).foldl Line.take l := by
  have hnothing : w.lines[n]? = w.lines[n]?.map fun l => (heardAt n []).foldl Line.take l := by simp
  cases r with
  | done x => exact hnothing
  | atomic act next => exact hnothing
  | effect e next =>
    rw [told, heardAt_singleton]
    exact e.perform_line w n
  | settle turn found next =>
    rw [step]
    split
    · exact hnothing
    · exact hnothing
    · exact hnothing

/-- a steady line takes whatever it hears -/
theorem DoesAmid.spared_line (h : r.DoesAmid (.sparing steady) w x w' es) {n : Nat}
    (hn : steady n) :
    w'.lines[n]? = w.lines[n]?.map fun l => (heardAt n es).foldl Line.take l := by
  induction h with
  | done => simp
  | @step r w _ _ _ _ ih =>
    rw [ih, step_line, Option.map_map, heardAt_append]
    simp only [List.foldl_append, Function.comp_def]
  | outside hchange _ ih => rw [ih, hchange.lines n hn]

/-- a line that is open stays open until it is hung up -/
theorem DoesAmid.closed_line (h : r.DoesAmid (.sparing steady) w x w' es) {n : Nat} {l : Line}
    (hl : w.lines[n]? = some l) : ∃ l', w'.lines[n]? = some l' ∧
      (l'.closed = true ↔ l.closed = true ∨ .hangUp ∈ heardAt n es) := by
  induction h generalizing l with
  | done => exact ⟨l, hl, by simp⟩
  | @step r w _ _ _ _ ih =>
    have hstep := r.step_line w n
    rw [hl] at hstep
    obtain ⟨l', hl', hclosed⟩ := ih hstep
    refine ⟨l', hl', ?_⟩
    rw [hclosed, Line.closed_foldl_take, heardAt_append, List.mem_append, or_assoc]
  | outside hchange _ ih =>
    obtain ⟨l₁, hl₁, hclosed₁⟩ := hchange.closed n l hl
    obtain ⟨l', hl', hclosed⟩ := ih hl₁
    exact ⟨l', hl', by rw [hclosed, hclosed₁]⟩

/-! ## The store -/

theorem cache_step (r : Routine α) (w : World) :
    (r.step w).2.cache = w.cache.after (callsAmong r.told) := by
  cases r with
  | effect e next => exact e.cache_perform w
  | settle turn found next =>
    rw [step]
    split
    · rfl
    · rfl
    · rfl
  | _ => rfl

/-- where nothing from outside touches the store, it is asked for what the task calls for -/
theorem DoesAmid.cache (h : r.DoesAmid out w x w' es)
    (hstore : out.KeepsStore) :
    w'.cache = w.cache.after (callsAmong es) := by
  induction h with
  | done => rfl
  | @step r w _ _ _ _ ih => rw [ih, r.cache_step, callsAmong_append, Journal.after_append]
  | outside hchange _ ih => rw [ih, hstore _ _ hchange]

theorem Does.cache (h : r.Does w x w' es) : w'.cache = w.cache.after (callsAmong es) := by
  have halone : r.DoesAmid .none w x w' es := h.amid
  exact halone.cache fun _ _ => False.elim

end Routine
end RhythmLobby
