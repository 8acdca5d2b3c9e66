import RhythmLobby.Proofs.Run

/-!
# Failures leave no trace

The same acts are carried out twice, starting with the same in memory.  In between, the store may
fail and recover, and so may lines, each time in another way.

* `Act.Step.agree`            one act;
* `failures_leave_no_trace`   all acts: what comes of them does not depend on the store and lines;
* `Act.twoFailing`            the store is out, and all lines but one fail.
-/

namespace RhythmLobby
open Routine

variable {May May' : List Session → World → Act → Prop} {steady : Nat → Prop}
  {start start' w w' v v' : World} {past : List Act} {outcomes outcomes' : List Outcome}

/-- memory is the same, and so are the steady lines, with all that came through -/
def World.SameTo (steady : Nat → Prop) (w v : World) : Prop :=
  v.hub = w.hub ∧ ∀ n, steady n → v.lines[n]? = w.lines[n]?

theorem Act.Step.agree {known : List Session} {act : Act} {o o' : Outcome}
    (h : Act.Step May (.sparing steady) known w act o w')
    (h' : Act.Step May' (.sparing steady) known v act o' v') (hsame : w.SameTo steady v) :
    o' = o ∧ w'.SameTo steady v' := by
  obtain ⟨-, es, hgo⟩ := h
  obtain ⟨-, es', hgo'⟩ := h'
  obtain ⟨hhub, hlines⟩ := hsame
  -- no failure makes a difference to the act, so that either time its effects are those it has when
  -- it runs alone
  obtain ⟨u, hdoes, hu⟩ := act.oblivious_task.does hgo (rfl : w.hub = w.hub)
  obtain ⟨u', hdoes', hu'⟩ := act.oblivious_task.does hgo' hhub.symm
  obtain ⟨rfl, rfl, rfl⟩ := hdoes.unique hdoes'
  refine ⟨rfl, hu'.symm.trans hu, fun n hn => ?_⟩
  rw [hgo'.spared_line hn, hgo.spared_line hn, hlines n hn]

/-- Let the same acts be carried out twice, starting with the same in memory, but with any two
stores, any two sets of lines and any failures of both at any time.  Then the same comes of them,
the same is left in memory, and the lines that are steady in both and were the same at the start are
the same, with all that came through.  Whatever comes to an end after the one course does so after
the other, with the same result. -/
theorem failures_leave_no_trace
    (h : Course (fun _ _ _ => True) (.sparing steady) start past outcomes w)
    (h' : Course (fun _ _ _ => True) (.sparing steady) start' past outcomes' w')
    (hmemory : start'.hub = start.hub)
    (hlines : ∀ n, steady n → start'.lines[n]? = start.lines[n]?) :
    outcomes' = outcomes ∧ w'.hub = w.hub ∧
      (∀ n, steady n → w'.lines[n]? = w.lines[n]?) ∧
      ∀ (act : Act) (o : Outcome) (v : World) (es : List Effect),
        act.task.DoesAmid (.sparing steady) w o v es →
          ∃ v', act.task.Ends w' o v' ∧ v'.hub = v.hub := by
  obtain ⟨hsame, hhub, hline⟩ := Run.agree (World.SameTo steady) h h' ⟨hmemory, hlines⟩
    fun hstep hstep' hrel => hstep.agree hstep' hrel
  refine ⟨hsame, hhub, hline, fun act o v es hact => ?_⟩
  obtain ⟨v', hdoes, hv'⟩ := act.oblivious_task.does hact hhub
  exact ⟨v', hdoes.ends, hv'⟩

/-! ## One evening, and the same with failures -/

namespace Act

/-- three lines, of which only the first is healthy, and the store is out -/
def twoFailing : World :=
  ({ World.blank with
    lines := [.opened .healthy, .opened .stalled, .opened .broken] }).setOutage true

theorem course_twoFailing (out : Outside) :
    Course (fun _ _ _ => True) out twoFailing evening greetings (following twoFailing evening) := by
  have hnone : Course (fun _ _ _ => True) out twoFailing [] [] twoFailing := .nil
  exact ((((hnone.after 100 trivial rfl).after 100 trivial rfl).after 100 trivial rfl).after 100
    trivial rfl).after 100 trivial rfl

end Act

open Act in
theorem failures_leave_no_trace_twoFailing :
    (following twoFailing evening).hub = (following threeLines evening).hub ∧
      (∀ n, n = 0 →
        (following twoFailing evening).lines[n]? = (following threeLines evening).lines[n]?) ∧
      ∀ (act : Act) (o : Outcome) (v : World) (es : List Effect),
        act.task.DoesAmid (.sparing (· = 0)) (following threeLines evening) o v es →
          ∃ v', act.task.Ends (following twoFailing evening) o v' ∧ v'.hub = v.hub :=
  (failures_leave_no_trace ((course_evening (.sparing (· = 0))).mono fun _ _ _ _ => trivial)
    (course_twoFailing _) rfl (by rintro _ rfl; rfl)).2

end RhythmLobby
