import RhythmLobby.Proofs.Session.Lifecycle

/-!
# What a client can tell from its frames

A client follows the packets that come through on its line, and so keeps a picture of something
that the server holds.

* `Replica`             how a client follows, and when its picture is right;
* `Replica.Keeps`       a picture that was right is right again;
* `Course.replicates`   if acts keep pictures right, all pictures are right on steady lines.
-/

namespace RhythmLobby
open Routine

def LineEvent.packet? : LineEvent → Option ServerPacket
  | .frame p => some p
  | .hangUp => none

theorem Line.frames_eq (l : Line) : l.frames = l.events.filterMap LineEvent.packet? := by
  unfold frames
  congr

/-- A way to follow packets, and when the picture that it leads to is right for a session.  Nothing
is asked of the pictures of sessions that are not found. -/
structure Replica (σ : Type) where
  blank : σ
  follow : σ → ServerPacket → σ
  Shows : Hub → Session → σ → Prop
  absent : ∀ {h s x}, ¬ h.Finds s → Shows h s x

namespace Replica

variable {σ : Type} (R : Replica σ)

/-- the picture after something has been heard -/
def after (x : σ) (events : List LineEvent) : σ :=
  (events.filterMap LineEvent.packet?).foldl R.follow x

/-- the picture of a client that has followed all frames of its line -/
def picture (l : Line) : σ := l.frames.foldl R.follow R.blank

theorem after_append (x : σ) (events events' : List LineEvent) :
    R.after x (events ++ events') = R.after (R.after x events) events' := by
  rw [after, List.filterMap_append, List.foldl_append, after, after]

@[simp] theorem after_nil (x : σ) : R.after x [] = x := rfl

@[simp] theorem after_frame (x : σ) (p : ServerPacket) : R.after x [.frame p] = R.follow x p := rfl

theorem after_eq_self {events : List LineEvent} (x : σ)
    (h : ∀ p, .frame p ∈ events → ∀ y, R.follow y p = y) : R.after x events = x := by
  induction events generalizing x with
  | nil => rfl
  | cons event events ih =>
    have hrest := ih (h := fun p hp => h p (List.mem_cons_of_mem _ hp))
    cases event with
    | frame p =>
      show R.after (R.follow x p) events = x
      rw [h p (List.mem_cons_self ..), hrest]
    | hangUp => exact hrest x

theorem after_hangUp (x : σ) (line n : Nat) : R.after x (LineEvent.hangUp.at line n) = x := by
  refine R.after_eq_self x fun p hp => ?_
  cases (LineEvent.mem_at.mp hp).2

/-- if the picture was right before the effects, it is right after them -/
def Keeps (s : Session) (h : Hub) (es : List Effect) (h' : Hub) : Prop :=
  ∀ x, R.Shows h s x → R.Shows h' s (R.after x (heardAt s.line es))

theorem keeps_nothing (s : Session) (h : Hub) : R.Keeps s h [] h := fun _ hx => hx

variable {R}

/-- it does not matter how a client comes to hear what it hears -/
theorem keeps_congr {s : Session} {h h' : Hub} {es es' : List Effect}
    (hheard : heardAt s.line es = heardAt s.line es') :
    R.Keeps s h es h' ↔ R.Keeps s h es' h' := by
  rw [Keeps, Keeps, hheard]

theorem Keeps.after {s : Session} {h h₁ h₂ : Hub} {es es' : List Effect} (hk : R.Keeps s h es h₁)
    (hk' : R.Keeps s h₁ es' h₂) : R.Keeps s h (es ++ es') h₂ := by
  intro x hx
  rw [heardAt_append, after_append]
  exact hk' _ (hk x hx)

theorem chained_keeps (R : Replica σ) : Chained fun h es h' => ∀ s, R.Keeps s h es h' where
  nothing h s := R.keeps_nothing s h
  after hk hk' s := (hk s).after (hk' s)

end Replica

/-! ## All acts -/

namespace Course

variable {database : Database} {timeouts : Timeouts} {flood : FloodLimits} {clock : Int64}
  {May : List Session → World → Act → Prop} {steady : Nat → Prop} {start w : World}
  {past : List Act} {outcomes : List Outcome}

theorem healthy (h : Course May (.sparing steady) start past outcomes w)
    (hsteady : ∀ n l, steady n → start.lines[n]? = some l → l.state = .healthy) {n : Nat} {l : Line}
    (hn : steady n) (hl : w.lines[n]? = some l) : l.state = .healthy := by
  induction h using Course.induction generalizing l with
  | nil => exact hsteady n l hn hl
  | snoc _ _ hgo ih =>
    rw [hgo.spared_line hn] at hl
    obtain ⟨l₀, hl₀, rfl⟩ := Option.map_eq_some_iff.mp hl
    rw [Line.state_foldl_take]
    exact ih hl₀

/-- Suppose that every act, running alone, keeps the pictures of all sessions right and brings a new
session a picture that is right.  Then amid failures of the store and of lines the picture of every
session on a steady line is right. -/
theorem replicates {σ : Type} (R : Replica σ) (hproper : ∀ known w act, May known w act →
      act.Proper known w)
    (hstart : start.hub = .start database timeouts flood clock)
    (hsteady : ∀ n l, steady n → start.lines[n]? = some l → l.state = .healthy)
    (hstep : ∀ {past outcomes w v v' act o es n},
      Course May (.sparing steady) start past outcomes w →
      May (known outcomes) w act → v.hub = w.hub → v.Kept (· ∈ known outcomes) n →
      v.hub.Lined (known outcomes) → act.task.Does v o v' es →
        (∀ s ∈ known outcomes, R.Keeps s v.hub es v'.hub) ∧
        ∀ s x, o.session? = some s → R.Shows v'.hub s (R.after x (heardAt s.line es)))
    (h : Course May (.sparing steady) start past outcomes w) {s : Session} (hs : s ∈ known outcomes)
    (hline : steady s.line) : ∃ l, w.lines[s.line]? = some l ∧ R.Shows w.hub s (R.picture l) := by
  induction h using Course.induction with
  | nil => cases hs
  | @snoc past outcomes w w' act o es hpast hmay hgo ih =>
    have hproperly := hpast.mono hproper
    have hlinesMatch := (hproperly.snoc (hproper _ _ _ hmay) hgo).linesMatch hstart
    obtain ⟨v, hv, hkept⟩ := hproperly.ofKnown.kept_amid hstart
    obtain ⟨v', hdoes, hv'⟩ := act.oblivious_task.does hgo hv
    have hlined := (hproperly.linesMatch hstart).lined
    obtain ⟨hkeeps, hnew⟩ := hstep hpast hmay hv hkept (hv ▸ hlined) hdoes
    rw [hv, hv'] at hkeeps
    rw [hv'] at hnew
    obtain ⟨l', hl', hclosed⟩ := hlinesMatch.lines s hs
    refine ⟨l', hl', ?_⟩
    by_cases hfound : w'.hub.Finds s
    · -- an open line has recorded all that it has heard
      have hopen : l'.closed = false := Bool.eq_false_iff.mpr fun hc => hclosed.mp hc hfound
      have htaken := hgo.spared_line hline
      rw [hl'] at htaken
      obtain ⟨l, hl, rfl⟩ := Option.map_eq_some_iff.mp htaken.symm
      have hevents := Line.events_foldl_take (hpast.healthy hsteady hline hl) hopen
      have hpicture : R.picture ((heardAt s.line es).foldl Line.take l) =
          R.after (R.picture l) (heardAt s.line es) := by
        rw [Replica.picture, Replica.picture, Line.frames_eq, Line.frames_eq, hevents]
        exact R.after_append R.blank l.events _
      rw [hpicture]
      rw [known_snoc, List.mem_append] at hs
      rcases hs with hs | hs
      · obtain ⟨l₀, hl₀, hshows⟩ := ih hs
        rw [hl] at hl₀
        cases hl₀
        exact hkeeps s hs _ hshows
      · exact hnew s _ (Option.mem_toList.mp hs)
    · exact R.absent hfound

end Course
end RhythmLobby
