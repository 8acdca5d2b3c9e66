import RhythmLobby.Proofs.Cache.Landing
import RhythmLobby.Proofs.Room.Packets
import RhythmLobby.Proofs.Session.Passwords

/-!
# Runs of a server

What is done with a server, one thing after another, each as a whole.

* `Act`, `Outcome`      what may be done, and what comes of it;
* `Run`                 the worlds after some steps of any kind, and what has come of them;
* `Run.transfer`, `Run.agree`   a run beside another one, step by step;
* `Course`              runs of acts amid changes from outside;
* `Course.afresh`       the same acts without changes from outside;
* `idsGiven`            the number of ids of rooms that have been given away;
* `Act.course_evening`     one evening with two users.
-/

namespace RhythmLobby
open Routine

/-! ## Acts -/

/-- what may be done with the server -/
inductive Act where
  | login (profile : Profile) (token : String) (line : Nat)
  | packet (s : Session) (p : ClientPacket)
  | disconnect (token : String)
  | shutdown
  /-- time passes, and from now on the database answers in another way -/
  | elapse (clock : Int64) (database : Database)

/-- what comes of an act -/
inductive Outcome where
  | login (x : Except RegistryError Session)
  | packet (x : Except Refusal Unit)
  | nothing

/-- the session that a login has brought -/
def Outcome.session? : Outcome → Option Session
  | login (.ok s) => some s
  | _ => none

/-- the sessions that have been online -/
def known (outcomes : List Outcome) : List Session := outcomes.filterMap Outcome.session?

theorem known_snoc (outcomes : List Outcome) (o : Outcome) :
    known (outcomes ++ [o]) = known outcomes ++ o.session?.toList := by
  rw [known, List.filterMap_append]
  cases h : o.session? with
  | none => simp [h, known]
  | some s => simp [h, known]

namespace Act

def task : Act → Routine Outcome
  | login profile token line => do
    let x ← RhythmLobby.login profile token line
    return .login x
  | packet s p => do
    let x ← s.dispatch p
    return .packet x
  | disconnect token => do
    RhythmLobby.disconnect token
    return .nothing
  | shutdown => do
    RhythmLobby.shutdown
    return .nothing
  | elapse clock database => do
    Routine.change fun h => { h with clock := clock, database := database }
    return .nothing

theorem does {act : Act} {o : Outcome} {w w' : World} {es : List Effect}
    (h : act.task.Does w o w' es) :
    match act with
    | login profile token line =>
      ∃ x, o = .login x ∧ (RhythmLobby.login profile token line).Does w x w' es
    | packet s p => ∃ x, o = .packet x ∧ (s.dispatch p).Does w x w' es
    | disconnect token => o = .nothing ∧ (RhythmLobby.disconnect token).Does w () w' es
    | shutdown => o = .nothing ∧ RhythmLobby.shutdown.Does w () w' es
    | elapse clock database => o = .nothing ∧
        w' = { w with hub := { w.hub with clock := clock, database := database } } ∧ es = [] := by
  cases act with
  | login profile token line => exact does_answer h
  | packet s p => exact does_answer h
  | disconnect token =>
    obtain ⟨_, ho, hgo⟩ := does_answer h
    exact ⟨ho, hgo⟩
  | shutdown =>
    obtain ⟨_, ho, hgo⟩ := does_answer h
    exact ⟨ho, hgo⟩
  | elapse clock database => exact does_done (does_change_bind h)

/-- no act has a use for what it is told of its effects -/
theorem oblivious_task (act : Act) : act.task.Oblivious := by
  have hdone : ∀ o : Outcome, Parallel id (done o) (done o) := fun o => .done o
  cases act with
  | login profile token line => exact (oblivious_login profile token line).bind fun _ => hdone _
  | packet s p => exact (s.oblivious_dispatch p).bind fun _ => hdone _
  | disconnect token => exact (oblivious_disconnect token).bind fun _ => hdone _
  | shutdown => exact oblivious_shutdown.bind fun _ => hdone _
  | elapse clock database => exact .bind (parallel_change fun _ => rfl) fun _ => hdone _

/-- packets come from sessions that have been online -/
def OfKnown (known : List Session) (_ : World) : Act → Prop
  | packet s _ => s ∈ known
  | _ => True

/-- besides, a login comes from a line that is open and that no other session has used -/
def Proper (known : List Session) (w : World) : Act → Prop
  | login _ _ line => (∀ s ∈ known, s.line ≠ line) ∧
      ∃ l, w.lines[line]? = some l ∧ l.closed = false
  | packet s _ => s ∈ known
  | _ => True

theorem Proper.ofKnown {known : List Session} {w : World} {act : Act} (h : act.Proper known w) :
    act.OfKnown known w := by
  cases act with
  | packet s p => exact h
  | _ => exact trivial

/-- besides, a session sends packets only while it is online -/
def Timely (known : List Session) (w : World) (act : Act) : Prop :=
  act.Proper known w ∧
    match act with
    | packet s _ => w.hub.directory.ofUser s.id = some s
    | _ => True

end Act

/-! ## Runs -/

/-- The worlds after some steps, taken one after another, and what has come of them.  A step may
depend on the sessions that have been online. -/
inductive Run {ι : Type} (Step : List Session → World → ι → Outcome → World → Prop)
    (start : World) : List ι → List Outcome → World → Prop
  | nil : Run Step start [] [] start
  | snoc {past : List ι} {outcomes : List Outcome} {w w' : World} {i : ι} {o : Outcome} :
      Run Step start past outcomes w → Step (known outcomes) w i o w' →
      Run Step start (past ++ [i]) (outcomes ++ [o]) w'

namespace Run

variable {ι κ : Type} {Step Step' : List Session → World → ι → Outcome → World → Prop}
  {start start' w w' : World} {past : List ι} {outcomes outcomes' : List Outcome}

theorem length_eq (h : Run Step start past outcomes w) : outcomes.length = past.length := by
  induction h with
  | nil => rfl
  | snoc _ _ ih => rw [List.length_append, List.length_append, ih, List.length_singleton,
      List.length_singleton]

theorem mono (h : Run Step start past outcomes w)
    (hstep : ∀ known w i o w', Step known w i o w' → Step' known w i o w') :
    Run Step' start past outcomes w := by
  induction h with
  | nil => exact .nil
  | snoc _ hlast ih => exact ih.snoc (hstep _ _ _ _ _ hlast)

/-- If every step can be matched by another one, with `Rel` before and after, so can a run. -/
theorem transfer {Other : List Session → World → κ → Outcome → World → Prop} {f : ι → κ}
    (Rel : World → World → Prop) (h : Run Step start past outcomes w) (hstart : Rel start start')
    (hstep : ∀ {known w i o w' v}, Step known w i o w' → Rel w v →
      ∃ v', Other known v (f i) o v' ∧ Rel w' v') :
    ∃ v, Run Other start' (past.map f) outcomes v ∧ Rel w v := by
  induction h with
  | nil => exact ⟨start', .nil, hstart⟩
  | @snoc past outcomes w w' i o _ hlast ih =>
    obtain ⟨v, hv, hrel⟩ := ih
    obtain ⟨v', hnext, hrel'⟩ := hstep hlast hrel
    refine ⟨v', ?_, hrel'⟩
    rw [List.map_append]
    exact hv.snoc hnext

/-- If every step beside another one can be led back to it, so can a run. -/
theorem reflect {Other : List Session → World → κ → Outcome → World → Prop} {f : ι → κ}
    (Rel : World → World → Prop) (h : Run Other start' (past.map f) outcomes w')
    (hstart : Rel start start')
    (hstep : ∀ {known w i o v v'}, Other known v (f i) o v' → Rel w v →
      ∃ w', Step known w i o w' ∧ Rel w' v') :
    ∃ w, Run Step start past outcomes w ∧ Rel w w' := by
  generalize hpast : past.map f = past' at h
  induction h generalizing past with
  | nil =>
    obtain rfl := List.map_eq_nil_iff.mp hpast
    exact ⟨start, .nil, hstart⟩
  | @snoc past' outcomes v v' j o _ hlast ih =>
    obtain ⟨before, last, rfl, hbefore, hsingle⟩ := List.map_eq_append_iff.mp hpast
    obtain ⟨i, rfl, rfl⟩ := List.map_eq_singleton_iff.mp hsingle
    obtain ⟨w, hrun, hrel⟩ := ih hbefore
    obtain ⟨w', hnext, hrel'⟩ := hstep hlast hrel
    exact ⟨w', hrun.snoc hnext, hrel'⟩

theorem agree (Rel : World → World → Prop) (h : Run Step start past outcomes w)
    (h' : Run Step' start' past outcomes' w') (hstart : Rel start start')
    (hstep : ∀ {known w v i o o' w' v'}, Step known w i o w' → Step' known v i o' v' → Rel w v →
      o' = o ∧ Rel w' v') : outcomes' = outcomes ∧ Rel w w' := by
  induction h generalizing outcomes' w' with
  | nil =>
    generalize hpast : ([] : List ι) = past at h'
    cases h' with
    | nil => exact ⟨rfl, hstart⟩
    | snoc _ _ => simp at hpast
  | @snoc past outcomes w w₁ i o _ hlast ih =>
    generalize hpast : past ++ [i] = past' at h'
    cases h' with
    | nil => simp at hpast
    | @snoc past₂ outcomes₂ w₂ _ i₂ o₂ h₂ hlast₂ =>
      obtain ⟨rfl, hi⟩ := List.append_inj' hpast rfl
      cases hi
      obtain ⟨rfl, hrel⟩ := ih h₂
      obtain ⟨rfl, hrel'⟩ := hstep hlast hlast₂ hrel
      exact ⟨rfl, hrel'⟩

end Run

/-! ## Courses -/

/-- an act that may be done comes to an end amid changes from outside -/
def Act.Step (May : List Session → World → Act → Prop) (out : Outside) (known : List Session)
    (w : World) (act : Act) (o : Outcome) (w' : World) : Prop :=
  May known w act ∧ ∃ es, act.task.DoesAmid out w o w' es

/-- the worlds after some acts, and what has come of them -/
abbrev Course (May : List Session → World → Act → Prop) (out : Outside) (start : World) :
    List Act → List Outcome → World → Prop := Run (Act.Step May out) start

namespace Course

variable {May May' : List Session → World → Act → Prop} {out out' : Outside}
  {start start' w w' : World} {past : List Act} {outcomes : List Outcome} {act : Act} {o : Outcome}
  {es : List Effect}

theorem snoc (h : Course May out start past outcomes w) (hmay : May (known outcomes) w act)
    (hgo : act.task.DoesAmid out w o w' es) :
    Course May out start (past ++ [act]) (outcomes ++ [o]) w' := Run.snoc h ⟨hmay, es, hgo⟩

theorem induction {May : List Session → World → Act → Prop} {out : Outside} {start : World}
    {motive : ∀ past outcomes w, Course May out start past outcomes w → Prop}
    (nil : motive [] [] start .nil)
    (snoc : ∀ {past outcomes w w' act o es} (h : Course May out start past outcomes w)
      (hmay : May (known outcomes) w act) (hgo : act.task.DoesAmid out w o w' es),
      motive past outcomes w h → motive _ _ w' (h.snoc hmay hgo))
    {past : List Act} {outcomes : List Outcome} {w : World}
    (h : Course May out start past outcomes w) : motive past outcomes w h := by
  induction h with
  | nil => exact nil
  | snoc h hlast ih =>
    obtain ⟨hmay, es, hgo⟩ := hlast
    exact snoc h hmay hgo ih

theorem mono (h : Course May out start past outcomes w)
    (hmay : ∀ known w act, May known w act → May' known w act) :
    Course May' out start past outcomes w :=
  Run.mono h fun _ _ _ _ _ hstep => ⟨hmay _ _ _ hstep.1, hstep.2⟩

/-- there may be more changes from outside than there are -/
theorem widen (h : Course May out start past outcomes w)
    (hout : ∀ w v, out.change w v → out'.change w v) : Course May out' start past outcomes w := by
  refine Run.mono h fun known w act o w' hstep => ?_
  obtain ⟨hmay, es, hgo⟩ := hstep
  exact ⟨hmay, es, hgo.mono hout⟩

theorem ofKnown (h : Course Act.Proper out start past outcomes w) :
    Course Act.OfKnown out start past outcomes w := h.mono fun _ _ _ => Act.Proper.ofKnown

theorem proper (h : Course Act.Timely out start past outcomes w) :
    Course Act.Proper out start past outcomes w := h.mono fun _ _ _ => And.left

theorem after (h : Course May out start past outcomes w) (fuel : Nat)
    (hmay : May (known outcomes) w act) (hrun : (act.task.run fuel w).map Prod.fst = some o) :
    Course May out start (past ++ [act]) (outcomes ++ [o]) (act.task.after fuel w) := by
  obtain ⟨es, hgo⟩ := (ends_after hrun).amid
  exact h.snoc hmay hgo

/-- The same acts with the same outcomes on a server that has just started, with an empty store and
without changes from outside.  Memory is the same then, and so is the store if it was empty and was
left as it is. -/
theorem afresh {database : Database} {timeouts : Timeouts} {flood : FloodLimits} {clock : Int64}
    (h : Course Act.OfKnown out start past outcomes w)
    (hstart : start.hub = .start database timeouts flood clock) :
    ∃ v, v.hub = w.hub ∧ (out.KeepsStore → start.cache = .empty → v.cache = w.cache) ∧
      Course Act.OfKnown .none (.start (.start database timeouts flood clock)) past outcomes v := by
  let Rel (w v : World) : Prop :=
    v.hub = w.hub ∧ (out.KeepsStore → start.cache = .empty → v.cache = w.cache)
  have hstep : ∀ {known w act o w' v}, Act.Step Act.OfKnown out known w act o w' → Rel w v →
      ∃ v', Act.Step Act.OfKnown .none known v act o v' ∧ Rel w' v' := by
    intro known w act o w' v hboth hall
    obtain ⟨hact, es, hgo⟩ := hboth
    obtain ⟨hv, hcache⟩ := hall
    obtain ⟨v', hdoes, hv'⟩ := act.oblivious_task.does hgo hv
    refine ⟨v', ⟨hact, es, hdoes.amid⟩, hv', fun hstore hempty => ?_⟩
    rw [hdoes.cache, hgo.cache hstore, hcache hstore hempty]
  have hfirst : Rel start (.start (.start database timeouts flood clock)) :=
    ⟨hstart.symm, fun _ hempty => hempty.symm⟩
  obtain ⟨v, hcourse, hv, hcache⟩ := Run.transfer (f := id) Rel h hfirst hstep
  rw [List.map_id] at hcourse
  exact ⟨v, hv, hcache, hcourse⟩

end Course

/-! ## Ids of rooms -/

def Act.takesId : Act → Outcome → Bool
  | .packet _ p, .packet x => p.takesId x
  | _, _ => false

/-- how many ids of rooms have been given away -/
def idsGiven (past : List Act) (outcomes : List Outcome) : Nat :=
  (past.zip outcomes).countP fun x => x.1.takesId x.2

theorem idsGiven_append {past : List Act} {outcomes : List Outcome}
    (h : outcomes.length = past.length) (more : List Act) (outcomes' : List Outcome) :
    idsGiven (past ++ more) (outcomes ++ outcomes') =
      idsGiven past outcomes + idsGiven more outcomes' := by
  rw [idsGiven, List.zip_append h.symm, List.countP_append, idsGiven, idsGiven]

theorem idsGiven_replicate (n : Nat) (act : Act) (o : Outcome) :
    idsGiven (.replicate n act) (.replicate n o) = if act.takesId o then n else 0 := by
  rw [idsGiven, List.zip_replicate', List.countP_replicate]

theorem idsGiven_snoc {past : List Act} {outcomes : List Outcome}
    (h : outcomes.length = past.length) (act : Act) (o : Outcome) :
    idsGiven (past ++ [act]) (outcomes ++ [o]) =
      idsGiven past outcomes + (act.takesId o).toNat := by
  have hlast : idsGiven [act] [o] = (act.takesId o).toNat := by
    rw [show [act] = List.replicate 1 act from rfl, show [o] = List.replicate 1 o from rfl,
      idsGiven_replicate]
    cases act.takesId o <;> rfl
  rw [idsGiven_append h, hlast]

/-! ## One evening -/

namespace Act

def carol : Profile := ⟨1, "", "carol", 0, 0, "", ""⟩

def dave : Profile := ⟨2, "", "dave", 0, 0, "", ""⟩

def arena : ClientPacket := .roomCreate "arena" none 4 ⟨7, 3, "aa", "song", .keys4, .zero⟩

def host : Session := ⟨0, "T1", carol, 0⟩

def guest : Session := ⟨1, "T2", dave, 1⟩

/-- the session in which the host is online again -/
def again : Session := ⟨2, "T3", carol, 2⟩

/-- a host opens a room, a guest joins it, and the host comes online again on another line -/
def evening : List Act :=
  [login carol "T1" 0, login dave "T2" 1, packet host arena, packet guest (.roomJoin 1 none),
    login carol "T3" 2]

/-- what comes of it -/
def greetings : List Outcome :=
  [.login (.ok host), .login (.ok guest), .packet (.ok ()), .packet (.ok ()), .login (.ok again)]

/-- three lines, all of them healthy -/
def threeLines : World :=
  { World.blank with lines := [.opened .healthy, .opened .healthy, .opened .healthy] }

theorem threeLines_opened {n : Nat} {l : Line} (hl : threeLines.lines[n]? = some l) :
    l = .opened .healthy := by
  have hmem := List.mem_of_getElem? hl
  simpa only [threeLines, List.mem_cons, List.not_mem_nil, or_false, or_self] using hmem

theorem threeLines_healthy {n : Nat} {l : Line} (hl : threeLines.lines[n]? = some l) :
    l.state = .healthy := by
  rw [threeLines_opened hl]
  rfl

/-- the world after some acts, each of which runs without interruption -/
def following (w : World) (acts : List Act) : World :=
  acts.foldl (fun w act => act.task.after 100 w) w

theorem course_evening (out : Outside) :
    Course Timely out threeLines evening greetings (following threeLines evening) := by
  have hnone : Course Timely out threeLines [] [] threeLines := .nil
  have hone : Course Timely out threeLines (evening.take 1) (greetings.take 1)
      (following threeLines (evening.take 1)) :=
    hnone.after 100 ⟨⟨nofun, _, rfl, rfl⟩, trivial⟩ rfl
  have htwo : Course Timely out threeLines (evening.take 2) (greetings.take 2)
      (following threeLines (evening.take 2)) :=
    hone.after 100 ⟨⟨by decide, _, rfl, rfl⟩, trivial⟩ rfl
  have hthree : Course Timely out threeLines (evening.take 3) (greetings.take 3)
      (following threeLines (evening.take 3)) :=
    htwo.after 100 ⟨List.mem_cons_self .., rfl⟩ rfl
  have hfour : Course Timely out threeLines (evening.take 4) (greetings.take 4)
      (following threeLines (evening.take 4)) :=
    hthree.after 100 ⟨List.mem_cons_of_mem _ (List.mem_singleton_self _), rfl⟩ rfl
  exact hfour.after 100 ⟨⟨by decide, _, rfl, rfl⟩, trivial⟩ rfl

end Act

end RhythmLobby
