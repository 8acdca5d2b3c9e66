import RhythmLobby.Hub.World

/-!
# Tasks of the server

A `Routine` is a task, step by step.  A step looks at memory and changes it at one moment, or has
an effect and is told what came of it; between two steps other tasks may run.  A settling loop
repeats an update of the cache until a look at memory finds nothing left to do.

* `Turn`             what a settling loop does after a look at memory;
* `Routine`          tasks, with `Routine.bind` to do one after another;
* `Routine.step`     one step of a task;
* `Routine.run`      a task that runs alone.
-/

namespace RhythmLobby

/-- what a settling loop does next -/
inductive Turn (β γ : Type) where
  | stop (x : γ)
  | look (next : β)
  | update (u : Cache.Update) (next : β)

/-- a task that ends with a member of `α` -/
inductive Routine : Type → Type 1 where
  | done {α : Type} (x : α) : Routine α
  /-- looks at memory and changes it -/
  | atomic {α β : Type} (act : Hub → β × Hub) (next : β → Routine α) : Routine α
  /-- has an effect, and goes on with what came of it -/
  | effect {α : Type} (e : Effect) (next : e.Answer → Routine α) : Routine α
  /-- a settling loop with what it has found out so far -/
  | settle {α β γ : Type} (turn : β → Hub → Turn β γ) (found : β) (next : γ → Routine α) :
    Routine α

namespace Routine

/-! ## One task after another -/

def bind {α δ : Type} : Routine α → (α → Routine δ) → Routine δ
  | done x, f => f x
  | atomic act next, f => atomic act fun b => (next b).bind f
  | effect e next, f => effect e fun a => (next a).bind f
  | settle turn found next, f => settle turn found fun c => (next c).bind f

instance : Monad Routine where
  pure := done
  bind := bind

theorem bind_done {α δ : Type} (x : α) (f : α → Routine δ) : (done x).bind f = f x := rfl

theorem done_bind {α : Type} (r : Routine α) : r.bind done = r := by
  induction r with
  | done x => rfl
  | atomic act next ih => simp only [bind, ih]
  | effect e next ih => simp only [bind, ih]
  | settle turn found next ih => simp only [bind, ih]

theorem bind_assoc {α δ ε : Type} (r : Routine α) (f : α → Routine δ) (g : δ → Routine ε) :
    (r.bind f).bind g = r.bind fun x => (f x).bind g := by
  induction r with
  | done x => rfl
  | atomic act next ih => simp only [bind, ih]
  | effect e next ih => simp only [bind, ih]
  | settle turn found next ih => simp only [bind, ih]

/-- a task whose result nobody waits for -/
def void {α : Type} (r : Routine α) : Routine Unit := r.bind fun _ => done ()

theorem void_bind {α δ : Type} (r : Routine α) (g : Routine δ) :
    (r.void.bind fun _ => g) = r.bind fun _ => g := bind_assoc _ _ _

theorem bind_void {α δ : Type} (r : Routine α) (f : α → Routine δ) :
    (r.bind f).void = r.bind fun x => (f x).void := bind_assoc _ _ _

/-! ## Single steps -/

/-- looks at memory and changes it -/
def transact (act : Hub → β × Hub) : Routine β := atomic act done

def read (f : Hub → β) : Routine β := atomic (fun h => (f h, h)) done

def change (f : Hub → Hub) : Routine Unit := atomic (fun h => ((), f h)) done

def emit (e : Effect) : Routine e.Answer := effect e done

/-- an update of the cache; whether the store took it is not passed on -/
def update (u : Cache.Update) : Routine Unit := do
  let _ ← emit (.update u)

theorem update_bind (u : Cache.Update) (f : Unit → Routine δ) :
    (update u).bind f = effect (.update u) fun _ => f () := rfl

/-- a settling loop -/
def settling (turn : β → Hub → Turn β γ) (found : β) : Routine γ := settle turn found done

/-- the same task for each element of a list -/
def each (f : α → Routine Unit) : List α → Routine Unit
  | [] => done ()
  | x :: rest => (f x).bind fun _ => each f rest

/-! ## Running -/

/-- one step; a task that has ended stays as it is -/
def step {α : Type} : Routine α → World → Routine α × World
  | done x, w => (done x, w)
  | atomic act next, w =>
    let (b, hub) := act w.hub
    (next b, { w with hub := hub })
  | effect e next, w => (next (e.answer w), e.perform w)
  | settle turn found next, w =>
    match turn found w.hub with
    | .stop c => (next c, w)
    | .look found => (settle turn found next, w)
    | .update u found => ((update u).bind fun _ => settle turn found next, w)

/-- at most `fuel` steps of a task that runs alone; `none` if it has not ended by then -/
def run {α : Type} : Nat → Routine α → World → Option (α × World)
  | _, done x, w => some (x, w)
  | 0, _, _ => none
  | fuel + 1, r, w =>
    let (r, w) := r.step w
    run fuel r w

end Routine
end RhythmLobby
