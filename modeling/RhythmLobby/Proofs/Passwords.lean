import RhythmLobby.Proofs.Run

/-!
# What shows of a password

Nobody learns more of a password than whether there is one and whether a guess is right.  Let the
same happen to a server twice, the second time with other passwords in all packets: the same comes
of every act, the store and all lines hold the same, and the rooms look the same.

* `Act.recoded`             the same act with other passwords;
* `Act.parallel`            what it does in memory with other passwords;
* `Incident`, `World.Undergoes`  what happens to a server, one thing after another;
* `World.Resembles`         all that can be seen is the same;
* `passwords_show_only_as_matches`   other passwords, the same sights.
-/

namespace RhythmLobby
open Routine

variable (f : Recoding)

/-! ## Acts -/

/-- the same act with other passwords -/
def Act.recoded : Act → Act
  | .packet s p => .packet s (p.recoded f)
  | act => act

theorem Act.parallel (act : Act) : Parallel (Hub.recoded f) act.task (act.recoded f).task := by
  cases act with
  | login profile token line => exact (parallel_login f profile token line).bind fun _ => .done _
  | packet s p => exact (s.parallel_dispatch f p).bind fun _ => .done _
  | disconnect token => exact (parallel_disconnect f token).bind fun _ => .done _
  | shutdown => exact (parallel_shutdown f).bind fun _ => .done _
  | elapse clock database => exact .bind (parallel_change fun _ => rfl) fun _ => .done _

/-! ## One thing after another -/

/-- what happens to a server: an act, or something that changes the store and the lines -/
inductive Incident where
  | act (a : Act)
  | outside (change : Cache.Journal → List Line → Cache.Journal × List Line)

/-- the world after a change of the store and the lines from outside -/
def World.outside (w : World) (change : Cache.Journal → List Line → Cache.Journal × List Line) :
    World :=
  { w with cache := (change w.cache w.lines).1, lines := (change w.cache w.lines).2 }

namespace Incident

/-- the same with other passwords -/
def recoded : Incident → Incident
  | .act a => .act (a.recoded f)
  | .outside change => .outside change

/-- one incident, and what comes of it -/
inductive Step (w : World) : Incident → Outcome → World → Prop
  | act {a : Act} {o : Outcome} {w' : World} {es : List Effect} :
      a.task.Does w o w' es → Step w (.act a) o w'
  | outside {change : Cache.Journal → List Line → Cache.Journal × List Line} :
      Step w (.outside change) .nothing (w.outside change)

variable {w w' v v' : World} {i : Incident} {o o' : Outcome}

theorem Step.unique (h : Step w i o w') (h' : Step w i o' v') : o' = o ∧ v' = w' := by
  cases h with
  | act hdoes =>
    cases h' with
    | act hdoes' =>
      obtain ⟨rfl, rfl, -⟩ := hdoes.unique hdoes'
      exact ⟨rfl, rfl⟩
  | outside =>
    cases h'
    exact ⟨rfl, rfl⟩

theorem Step.recoded (h : Step w i o w') :
    Step (w.imaged (Hub.recoded f)) (i.recoded f) o (w'.imaged (Hub.recoded f)) := by
  cases h with
  | act hdoes => exact .act ((Act.parallel f _).does hdoes)
  | outside => exact .outside

/-- what goes on with other passwords goes on with these ones, too -/
theorem Step.of_recoded (h : Step (w.imaged (Hub.recoded f)) (i.recoded f) o v') :
    ∃ w', Step w i o w' ∧ v' = w'.imaged (Hub.recoded f) := by
  cases i with
  | act a =>
    cases h with
    | act hdoes =>
      obtain ⟨w', hdoes', hv'⟩ := (Act.parallel f a).does_only rfl hdoes
      exact ⟨w', .act hdoes', hv'⟩
  | outside change =>
    cases h
    exact ⟨_, .outside, rfl⟩

end Incident

namespace World

/-- one thing after another, each as a whole: what comes of it, and the world afterwards -/
abbrev Undergoes (start : World) : List Incident → List Outcome → World → Prop :=
  Run (fun _ => Incident.Step) start

variable {start w v : World} {incidents : List Incident} {outcomes outcomes' : List Outcome}

theorem Undergoes.unique (h : start.Undergoes incidents outcomes w)
    (h' : start.Undergoes incidents outcomes' v) : outcomes' = outcomes ∧ v = w := by
  refine Run.agree (fun w v => v = w) h h' rfl fun hstep hstep' hrel => ?_
  subst hrel
  exact hstep.unique hstep'

theorem Undergoes.recoded (h : start.Undergoes incidents outcomes w) :
    (start.imaged (Hub.recoded f)).Undergoes (incidents.map (Incident.recoded f)) outcomes
      (w.imaged (Hub.recoded f)) := by
  obtain ⟨_, hrun, rfl⟩ : ∃ v, (start.imaged (Hub.recoded f)).Undergoes
      (incidents.map (Incident.recoded f)) outcomes v ∧ v = w.imaged (Hub.recoded f) :=
    Run.transfer (fun w v => v = w.imaged (Hub.recoded f)) h rfl fun hstep hrel =>
      ⟨_, hrel ▸ hstep.recoded f, rfl⟩
  exact hrun

theorem Undergoes.of_recoded
    (h : (start.imaged (Hub.recoded f)).Undergoes (incidents.map (Incident.recoded f)) outcomes v) :
    ∃ w, start.Undergoes incidents outcomes w := by
  obtain ⟨w, hrun, -⟩ : ∃ w, start.Undergoes incidents outcomes w ∧
      v = w.imaged (Hub.recoded f) :=
    Run.reflect (fun w v => v = w.imaged (Hub.recoded f)) h rfl fun hstep hrel => by
      subst hrel
      exact hstep.of_recoded f
  exact ⟨w, hrun⟩

/-! ## What can be seen -/

/-- Whatever can be seen is the same: the store with all calls on it, the lines with all frames and
hang-ups, the counts, memory but for the rooms, and of each room what its members are shown and all
that it holds but for the password. -/
structure Resembles (w w' : World) : Prop where
  cache : w'.cache = w.cache
  lines : w'.lines = w.lines
  metrics : w'.metrics = w.metrics
  memory : { w'.hub with rooms := [] } = { w.hub with rooms := [] }
  snapshots : ∀ ref, (w'.hub.room ref).snapshot = (w.hub.room ref).snapshot
  rooms : ∀ ref, { w'.hub.room ref with password := none } =
    { w.hub.room ref with password := none }

theorem resembles_recoded (w : World) : w.Resembles (w.imaged (Hub.recoded f)) where
  cache := rfl
  lines := rfl
  metrics := rfl
  memory := rfl
  snapshots ref := by
    show ((w.hub.recoded f).room ref).snapshot = _
    rw [Hub.recoded_room, Room.recoded_snapshot]
  rooms ref := by
    show { (w.hub.recoded f).room ref with password := none } = _
    rw [Hub.recoded_room]
    rfl

theorem imaged_of_no_rooms (h : w.hub.rooms = []) : w.imaged (Hub.recoded f) = w := by
  unfold imaged withHub Hub.recoded
  rw [h, List.map_nil, ← h]

end World

/-- Let a server without rooms undergo the same with two sets of passwords, such that different
passwords stay different and none stays none.  Either both runs come to an end or neither does.
The same comes of all acts, and all that can be seen afterwards is the same. -/
theorem passwords_show_only_as_matches {start : World} (hstart : start.hub.rooms = [])
    (incidents : List Incident) :
    ((∃ outcomes w, start.Undergoes incidents outcomes w) ↔
      ∃ outcomes w, start.Undergoes (incidents.map (Incident.recoded f)) outcomes w) ∧
    ∀ outcomes w outcomes' w', start.Undergoes incidents outcomes w →
      start.Undergoes (incidents.map (Incident.recoded f)) outcomes' w' →
      outcomes' = outcomes ∧ w.Resembles w' := by
  have hsame := World.imaged_of_no_rooms f hstart
  refine ⟨⟨?_, ?_⟩, ?_⟩
  · intro hexists
    obtain ⟨outcomes, w, h⟩ := hexists
    exact ⟨outcomes, _, hsame ▸ h.recoded f⟩
  · intro hexists
    obtain ⟨outcomes, w, h⟩ := hexists
    rw [← hsame] at h
    exact ⟨outcomes, h.of_recoded f⟩
  · intro outcomes w outcomes' w' h h'
    have himage := h.recoded f
    rw [hsame] at himage
    obtain ⟨rfl, rfl⟩ := himage.unique h'
    exact ⟨rfl, w.resembles_recoded f⟩

/-! ## A guest at the door -/

theorem World.Undergoes.after {start w : World} {a : Act} {o : Outcome} {past : List Incident}
    {outcomes : List Outcome} (h : start.Undergoes past outcomes w) (fuel : Nat)
    (hrun : (a.task.run fuel w).map Prod.fst = some o) :
    start.Undergoes (past ++ [.act a]) (outcomes ++ [o]) (a.task.after fuel w) := by
  obtain ⟨es, hdoes⟩ := (ends_after hrun).does
  exact h.snoc (.act hdoes)

namespace Incident

open Act (carol dave host guest)

/-- every password but the empty one, with the same words before it -/
def longer : Recoding where
  code s := if s = "" then "" else "my " ++ s
  injective s t h := by
    by_cases hs : s = ""
    · by_cases ht : t = ""
      · rw [hs, ht]
      · simp [hs, ht] at h
    · by_cases ht : t = ""
      · simp [hs, ht] at h
      · simpa [hs, ht] using h
  empty := rfl

/-- a guest is let in at the second guess, and the host sets another password while the store
is out -/
def knocking : List Incident :=
  [.act (.login carol "T1" 0), .act (.login dave "T2" 1),
    .act (.packet host (.roomCreate "arena" (some "oak") 4 ⟨7, 3, "aa", "song", .keys4, .zero⟩)),
    .act (.packet guest (.roomJoin 1 (some "elm"))),
    .act (.packet guest (.roomJoin 1 (some "oak"))),
    .outside fun cache lines => ({ cache with outage := fun _ => true }, lines),
    .act (.packet host (.roomSettings { SettingsPatch.empty with password := some "elm" }))]

/-- what comes of it -/
def answers : List Outcome :=
  [.login (.ok host), .login (.ok guest), .packet (.ok ()),
    .packet (.error (.room .wrongPassword)), .packet (.ok ()), .nothing, .packet (.ok ())]

/-- the world after all incidents, where every act runs without interruption -/
def leaves (w : World) (incidents : List Incident) : World :=
  incidents.foldl (fun w i =>
    match i with
    | .act a => a.task.after 100 w
    | .outside change => w.outside change) w

theorem undergoes_knocking :
    Act.threeLines.Undergoes knocking answers (leaves Act.threeLines knocking) := by
  have hnone : Act.threeLines.Undergoes [] [] Act.threeLines := .nil
  have hasked : Act.threeLines.Undergoes (knocking.take 5) (answers.take 5)
      (leaves Act.threeLines (knocking.take 5)) :=
    ((((hnone.after 100 rfl).after 100 rfl).after 100 rfl).after 100 rfl).after 100 rfl
  have hout : Act.threeLines.Undergoes (knocking.take 6) (answers.take 6)
      (leaves Act.threeLines (knocking.take 6)) := hasked.snoc .outside
  exact hout.after 100 rfl

theorem undergoes_knocking_longer : Act.threeLines.Undergoes (knocking.map (recoded longer)) answers
    (leaves Act.threeLines (knocking.map (recoded longer))) := by
  have hnone : Act.threeLines.Undergoes [] [] Act.threeLines := .nil
  have hasked : Act.threeLines.Undergoes ((knocking.take 5).map (recoded longer)) (answers.take 5)
      (leaves Act.threeLines ((knocking.take 5).map (recoded longer))) :=
    ((((hnone.after 100 rfl).after 100 rfl).after 100 rfl).after 100 rfl).after 100 rfl
  have hout : Act.threeLines.Undergoes ((knocking.take 6).map (recoded longer)) (answers.take 6)
      (leaves Act.threeLines ((knocking.take 6).map (recoded longer))) := hasked.snoc .outside
  exact hout.after 100 rfl

end Incident

open Incident in
theorem passwords_show_only_as_matches_knocking :
    ((leaves Act.threeLines knocking).hub.room ⟨0, 1⟩).password = some "elm" ∧
      ((leaves Act.threeLines (knocking.map (recoded longer))).hub.room ⟨0, 1⟩).password =
        some "my elm" ∧
      (leaves Act.threeLines knocking).Resembles
        (leaves Act.threeLines (knocking.map (recoded longer))) :=
  ⟨rfl, rfl, ((passwords_show_only_as_matches longer rfl knocking).2 _ _ _ _
    undergoes_knocking undergoes_knocking_longer).2⟩

end RhythmLobby
