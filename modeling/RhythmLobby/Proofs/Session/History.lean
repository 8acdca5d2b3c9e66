import Mathlib.Data.List.Induction
import RhythmLobby.Proofs.Session.Announcements

/-!
# What has been asked of a directory

The two tables of a directory come apart while a displaced session waits for its teardown.  Still,
what they find follows from the calls that have been made: a look-up finds the session that was
entered last, unless it has been taken out since.

* `Directory.Call`, `Directory.Event`   what a directory is asked, and what comes of it;
* `Directory.record`                    what has come of some calls, and the directory after them;
* `Directory.Stands`                    the last of some sessions that was entered is still there;
* `Directory.Tells`                     look-ups find the sessions that stand;
* `lookups_follow_history`              look-ups, answers and listings after any calls.
-/

namespace RhythmLobby
namespace Directory

/-- what may be asked of a directory -/
inductive Call where
  | add (s : Session)
  | remove (token : String)
  deriving DecidableEq

/-- what comes of a call -/
inductive Event where
  | entered (s : Session) (displaced : Option Session)
  | refused (s : Session)
  | removed (s : Session)
  /-- there is no session with the token -/
  | missed (token : String)
  deriving DecidableEq

/-- what comes of a call, and the directory after it -/
def answer (d : Directory) : Call → Event × Directory
  | .add s =>
    match d.add s with
    | .ok (displaced, d') => (.entered s displaced, d')
    | .error _ => (.refused s, d)
  | .remove token =>
    match d.remove token with
    | some (s, d') => (.removed s, d')
    | none => (.missed token, d)

/-- what has come of some calls on an empty directory, and the directory after them -/
def record (calls : List Call) : List Event × Directory :=
  calls.foldl (fun (log, d) c => (log ++ [(d.answer c).1], (d.answer c).2)) ([], empty)

theorem record_concat (calls : List Call) (c : Call) : record (calls ++ [c]) =
    ((record calls).1 ++ [((record calls).2.answer c).1], ((record calls).2.answer c).2) := by
  rw [record, List.foldl_append]
  rfl

/-! ## Answers -/

section Answers

variable {d : Directory}

theorem answer_taken {s : Session} (h : d.ofToken s.token ≠ none) :
    d.answer (.add s) = (.refused s, d) := by
  rcases d.add_cases s with ⟨heq, -⟩ | ⟨_, -, hd⟩
  · simp only [answer, heq]
  · exact absurd hd.fresh h

theorem answer_free {s : Session} (h : d.ofToken s.token = none) :
    ∃ d', d.answer (.add s) = (.entered s (d.ofUser s.id), d') ∧ d.Entered s d' := by
  rcases d.add_cases s with ⟨-, htaken⟩ | ⟨d', heq, hd⟩
  · exact absurd h htaken
  · exact ⟨d', by simp only [answer, heq], hd⟩

theorem answer_unknown (hd : d.Coherent) {token : String} (h : d.ofToken token = none) :
    d.answer (.remove token) = (.missed token, d) := by
  rcases remove_cases hd token with ⟨heq, -⟩ | ⟨s, _, -, rfl, hr⟩
  · simp only [answer, heq]
  · rw [hr.present] at h
    cases h

theorem answer_known (hd : d.Coherent) {token : String} {s : Session}
    (h : d.ofToken token = some s) :
    ∃ d', d.answer (.remove token) = (.removed s, d') ∧ d.Removed s d' := by
  rcases remove_cases hd token with ⟨-, hnone⟩ | ⟨s', d', heq, rfl, hr⟩
  · rw [h] at hnone
    cases hnone
  · rw [hr.present] at h
    cases h
    exact ⟨d', by simp only [answer, heq], hr⟩

end Answers

/-! ## The last session of a kind -/

/-- Of all sessions with `p` that have been entered, `s` was the last one, and it has not been taken
out since. -/
def Stands (p : Session → Prop) (log : List Event) (s : Session) : Prop :=
  ∃ before displaced since, log = before ++ .entered s displaced :: since ∧ p s ∧
    (∀ s' displaced', .entered s' displaced' ∈ since → ¬ p s') ∧ .removed s ∉ since

variable {p : Session → Prop} {log : List Event} {s s' : Session}

theorem not_stands_nil : ¬ Stands p [] s := by
  intro h
  obtain ⟨before, displaced, since, hlog, -⟩ := h
  exact List.append_ne_nil_of_right_ne_nil before (List.cons_ne_nil _ _) hlog.symm

/-- Whoever stands after one more event has been entered by it, or stood before and has neither been
followed nor taken out by it. -/
theorem stands_concat {e : Event} : Stands p (log ++ [e]) s ↔
    ((∃ displaced, e = .entered s displaced) ∧ p s) ∨
    (Stands p log s ∧ (∀ s' displaced, e = .entered s' displaced → ¬ p s') ∧ e ≠ .removed s) := by
  constructor
  · intro h
    obtain ⟨before, displaced, since, hlog, hp, hlast, hstays⟩ := h
    rcases List.eq_nil_or_concat since with rfl | ⟨since, e', rfl⟩
    · obtain ⟨-, he⟩ := List.append_inj' hlog rfl
      cases he
      exact .inl ⟨⟨displaced, rfl⟩, hp⟩
    · rw [List.concat_eq_append, ← List.cons_append, ← List.append_assoc] at hlog
      obtain ⟨rfl, he⟩ := List.append_inj' hlog rfl
      cases he
      simp only [List.concat_eq_append, List.mem_append, List.mem_singleton, not_or] at hlast hstays
      refine .inr ⟨⟨before, displaced, since, rfl, hp, ?_, hstays.1⟩, ?_, Ne.symm hstays.2⟩
      · exact fun s' displaced' hs' => hlast s' displaced' (.inl hs')
      · exact fun s' displaced' he => hlast s' displaced' (.inr he.symm)
  · rintro (⟨⟨displaced, rfl⟩, hp⟩ | ⟨⟨before, displaced, since, rfl, hp, hlast, hstays⟩, hnot,
    hne⟩)
    · exact ⟨log, displaced, [], rfl, hp, nofun, nofun⟩
    · refine ⟨before, displaced, since ++ [e], by simp, hp, fun s' displaced' hs' => ?_, ?_⟩
      · rcases List.mem_append.mp hs' with hs' | hs'
        · exact hlast s' displaced' hs'
        · exact hnot s' displaced' (List.mem_singleton.mp hs').symm
      · simp only [List.mem_append, List.mem_singleton, not_or]
        exact ⟨hstays, hne.symm⟩

theorem stands_entered [DecidablePred p] {displaced : Option Session} :
    Stands p (log ++ [.entered s' displaced]) s ↔ if p s' then s = s' else Stands p log s := by
  rw [stands_concat]
  by_cases hp : p s'
  · rw [if_pos hp]
    constructor
    · rintro (⟨⟨_, he⟩, -⟩ | ⟨-, hnot, -⟩)
      · cases he
        rfl
      · exact absurd hp (hnot s' displaced rfl)
    · intro heq
      subst heq
      exact .inl ⟨⟨displaced, rfl⟩, hp⟩
  · rw [if_neg hp]
    constructor
    · rintro (⟨⟨_, he⟩, hs⟩ | ⟨hstands, -⟩)
      · cases he
        exact absurd hs hp
      · exact hstands
    · intro hstands
      refine .inr ⟨hstands, fun _ _ he => ?_, nofun⟩
      cases he
      exact hp

theorem stands_removed : Stands p (log ++ [.removed s']) s ↔ Stands p log s ∧ s ≠ s' := by
  rw [stands_concat]
  simp [eq_comm]

theorem stands_idle {e : Event} (hentered : ∀ s' displaced, e ≠ .entered s' displaced)
    (hremoved : ∀ s', e ≠ .removed s') : Stands p (log ++ [e]) s ↔ Stands p log s := by
  rw [stands_concat]
  simp [hentered, hremoved]

/-! ## Look-ups -/

/-- look-ups find the sessions that stand -/
structure Tells (log : List Event) (d : Directory) : Prop where
  coherent : d.Coherent
  ofToken : ∀ token s, d.ofToken token = some s ↔ Stands (·.token = token) log s
  ofUser : ∀ user s, d.ofUser user = some s ↔ Stands (·.id = user) log s

variable {d d' : Directory}

theorem tells_empty : Tells [] empty where
  coherent := coherent_empty
  ofToken _ _ := ⟨nofun, fun h => absurd h not_stands_nil⟩
  ofUser _ _ := ⟨nofun, fun h => absurd h not_stands_nil⟩

theorem Tells.entered (h : Tells log d) (hd : d.Entered s d') (displaced : Option Session) :
    Tells (log ++ [.entered s displaced]) d' where
  coherent := h.coherent.entered hd
  ofToken token x := by
    rw [hd.ofToken, stands_entered]
    split
    · exact ⟨fun he => (Option.some.inj he).symm, fun he => he ▸ rfl⟩
    · exact h.ofToken token x
  ofUser user x := by
    rw [hd.ofUser, stands_entered]
    split
    · exact ⟨fun he => (Option.some.inj he).symm, fun he => he ▸ rfl⟩
    · exact h.ofUser user x

/-- No other session stands under the token of a session that is taken out, but one of its user
may. -/
theorem Tells.removed (h : Tells log d) (hd : d.Removed s d') : Tells (log ++ [.removed s]) d' where
  coherent := h.coherent.removed hd
  ofToken token x := by
    rw [hd.ofToken, stands_removed, ← h.ofToken]
    split
    · rename_i ht
      subst ht
      rw [hd.present]
      refine ⟨nofun, fun ⟨he, hne⟩ => absurd (Option.some.inj he).symm hne⟩
    · rename_i ht
      refine ⟨fun hx => ⟨hx, ?_⟩, fun hx => hx.1⟩
      intro heq
      subst heq
      exact ht (h.coherent.token hx)
  ofUser user x := by
    rw [hd.ofUser, stands_removed, ← h.ofUser]
    split
    · rename_i hs
      rw [hs.2]
      exact ⟨nofun, fun ⟨he, hne⟩ => absurd (Option.some.inj he).symm hne⟩
    · rename_i hs
      refine ⟨fun hx => ⟨hx, ?_⟩, fun hx => hx.1⟩
      intro heq
      subst heq
      exact hs ⟨h.coherent.user hx, hx⟩

theorem Tells.idle {e : Event} (h : Tells log d)
    (hentered : ∀ s' displaced, e ≠ .entered s' displaced)
    (hremoved : ∀ s', e ≠ .removed s') : Tells (log ++ [e]) d where
  coherent := h.coherent
  ofToken token s := (h.ofToken token s).trans (stands_idle hentered hremoved).symm
  ofUser user s := (h.ofUser user s).trans (stands_idle hentered hremoved).symm

theorem Tells.answer (h : Tells log d) (c : Call) :
    Tells (log ++ [(d.answer c).1]) (d.answer c).2 := by
  cases c with
  | add s =>
    by_cases hs : d.ofToken s.token = none
    · obtain ⟨d', heq, hd⟩ := answer_free hs
      rw [heq]
      exact h.entered hd _
    · rw [answer_taken hs]
      exact h.idle nofun nofun
  | remove token =>
    cases hs : d.ofToken token with
    | none =>
      rw [answer_unknown h.coherent hs]
      exact h.idle nofun nofun
    | some s =>
      obtain ⟨d', heq, hd⟩ := answer_known h.coherent hs
      rw [heq]
      exact h.removed hd

theorem tells_record (calls : List Call) : Tells (record calls).1 (record calls).2 := by
  induction calls using List.reverseRecOn with
  | nil => exact tells_empty
  | append_singleton calls c ih =>
    rw [record_concat]
    exact ih.answer c

end Directory

open Directory in
/-- After any calls, a token finds the last session with this token that was entered, unless it has
been taken out since, and so does a user.  The next session is refused, and changes nothing, exactly
if its token finds somebody; otherwise it displaces whom its user finds, and who is taken out next
is whom the token finds.  Everybody that some user finds is listed once, and nobody else. -/
theorem lookups_follow_history (calls : List Call) :
    let (log, d) := record calls
    (∀ token s, d.ofToken token = some s ↔ Stands (·.token = token) log s) ∧
    (∀ user s, d.ofUser user = some s ↔ Stands (·.id = user) log s) ∧
    (∀ s, d.ofToken s.token ≠ none → record (calls ++ [.add s]) = (log ++ [.refused s], d)) ∧
    (∀ s, d.ofToken s.token = none → ∃ d',
      record (calls ++ [.add s]) = (log ++ [.entered s (d.ofUser s.id)], d')) ∧
    (∀ token s, d.ofToken token = some s → ∃ d',
      record (calls ++ [.remove token]) = (log ++ [.removed s], d')) ∧
    (∀ token, d.ofToken token = none →
      record (calls ++ [.remove token]) = (log ++ [.missed token], d)) ∧
    (∀ s, s ∈ d.all ↔ ∃ user, d.ofUser user = some s) ∧ d.all.Nodup ∧ d.count = d.all.length := by
  have h := tells_record calls
  simp only [record_concat]
  generalize record calls = logged at h ⊢
  obtain ⟨log, d⟩ := logged
  dsimp only at h ⊢
  have hd := h.coherent
  refine ⟨h.ofToken, h.ofUser, fun s hs => by rw [answer_taken hs], fun s hs => ?_,
    fun token s hs => ?_, fun token hs => by rw [answer_unknown hd hs], fun s => ?_,
    hd.nodup_all, ?_⟩
  · obtain ⟨d', heq, -⟩ := answer_free hs
    exact ⟨d', by rw [heq]⟩
  · obtain ⟨d', heq, -⟩ := answer_known hd hs
    exact ⟨d', by rw [heq]⟩
  · exact ⟨fun hs => ⟨_, hd.mem_all_iff.mp hs⟩, fun ⟨user, hs⟩ => Table.mem_values hs⟩
  · exact (List.length_map _).symm

end RhythmLobby
