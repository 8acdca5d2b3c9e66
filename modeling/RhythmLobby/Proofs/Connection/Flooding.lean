import Mathlib.Data.List.DropRight
import RhythmLobby.Connection.Loop
import RhythmLobby.Proofs.Refusals

/-!
# Clients that send too fast

Each text that a client sends comes with a verdict.  A connection serves the texts one by one until
the client is gone or too many of them have been refused in a row, and tears the session down.

* `texts`                       the texts that come before the client is gone;
* `Attends`                     which of them are served;
* `Session.attend`              what becomes of each;
* `Session.react_occurrences`   the loop serves these texts, one after another;
* `floods_are_cut_off`          all of this for a whole connection.
-/

namespace RhythmLobby
open Routine

/-! ## The texts that are served -/

/-- the texts that come before the client is gone, or before nothing comes any more -/
def texts : List Arrival → List String
  | [] => []
  | .text frame :: rest => frame :: texts rest
  | .other :: rest => texts rest
  | .wait _ :: rest => texts rest
  | .close :: _ => []
  | .failure :: _ => []
  | .pending :: _ => []

/-- how many texts at the end are refused in a row -/
def row (judged : List (String × Bool)) : Nat := (judged.rtakeWhile fun t => !t.2).length

/-- Of the texts that come, the first are served: all of them, or as many as it takes until `limit`
of them are refused in a row. -/
structure Attends (limit : Nat) (judged served : List (String × Bool)) : Prop where
  first : served <+: judged
  ends : served = judged ∨ row served = limit
  before : ∀ earlier, earlier <+: served → earlier ≠ served → row earlier < limit

theorem row_accepted (judged : List (String × Bool)) (frame : String) :
    row (judged ++ [(frame, true)]) = 0 := by
  rw [row, List.rtakeWhile_concat_neg _ _ _ (by simp), List.length_nil]

theorem row_refused (judged : List (String × Bool)) (frame : String) :
    row (judged ++ [(frame, false)]) = row judged + 1 := by
  rw [row, List.rtakeWhile_concat_pos _ _ _ (by simp), List.length_append, row]
  rfl

/-- of two beginnings one goes on after the other, which is only possible if they are the same -/
theorem Attends.unique {limit : Nat} {judged served served' : List (String × Bool)}
    (h : Attends limit judged served) (h' : Attends limit judged served') : served' = served := by
  have hlonger : ∀ {short long : List (String × Bool)}, Attends limit judged short →
      Attends limit judged long → short <+: long → long = short := by
    intro short long hs hl hprefix
    by_contra hne
    have hfew := hl.before short hprefix (Ne.symm hne)
    rcases hs.ends with rfl | hrow
    · exact hne (hl.first.eq_of_length_le hprefix.length_le)
    · omega
  rcases List.prefix_or_prefix_of_prefix h.first h'.first with hp | hp
  · exact hlonger h h' hp
  · exact (hlonger h' h hp).symm

/-- how many occurrences a connection looks at in order to serve some texts after others: these
texts and, unless it is cut off, what comes after them -/
def lookedAt (limit : Nat) (past served : List (String × Bool)) : Nat :=
  served.length + if row (past ++ served) < limit then 1 else 0

theorem lookedAt_cons (limit : Nat) (past served : List (String × Bool)) (t : String × Bool) :
    lookedAt limit past (t :: served) = lookedAt limit (past ++ [t]) served + 1 := by
  unfold lookedAt
  rw [List.append_cons, List.length_cons]
  omega

/-- as long as it is not cut off, a connection looks at what comes next -/
theorem lookedAt_pos {limit : Nat} {past : List (String × Bool)} (h : row past < limit)
    (served : List (String × Bool)) : 0 < lookedAt limit past served := by
  cases served with
  | nil => simp [lookedAt, h]
  | cons t served =>
    rw [lookedAt_cons]
    omega

/-- the texts that are served after some were refused in a row -/
def served (limit : Nat) : Nat → List (String × Bool) → List (String × Bool)
  | _, [] => []
  | _, (frame, true) :: rest => (frame, true) :: served limit 0 rest
  | refused, (frame, false) :: rest =>
    if limit ≤ refused + 1 then [(frame, false)]
    else (frame, false) :: served limit (refused + 1) rest

/-- The induction goes over the texts to come.  No beginning of those that have come has too many
refusals in a row. -/
theorem attends_served {limit : Nat} (judged past : List (String × Bool))
    (hpast : ∀ earlier, earlier <+: past → row earlier < limit) :
    Attends limit (past ++ judged) (past ++ served limit (row past) judged) := by
  induction judged generalizing past with
  | nil => exact ⟨List.prefix_rfl, .inl rfl, fun earlier he _ => hpast earlier (by
      rwa [served, List.append_nil] at he)⟩
  | cons t rest ih =>
    obtain ⟨frame, accepted⟩ := t
    have hsplit : ∀ more : List (String × Bool), past ++ (frame, accepted) :: more =
        past ++ [(frame, accepted)] ++ more := fun more => (List.append_cons ..)
    have hnext : row (past ++ [(frame, accepted)]) < limit →
        ∀ earlier, earlier <+: past ++ [(frame, accepted)] → row earlier < limit := by
      intro hrow earlier he
      rcases List.prefix_concat_iff.mp he with rfl | he
      · exact hrow
      · exact hpast earlier he
    have hfew := hpast past List.prefix_rfl
    cases accepted with
    | true =>
      have hrow := row_accepted past frame
      rw [served, hsplit rest, hsplit (served limit 0 rest), ← hrow]
      exact ih _ (hnext (by omega))
    | false =>
      have hrow := row_refused past frame
      rw [served]
      split
      · rename_i hlimit
        refine ⟨?_, .inr (by omega), fun earlier he hne => ?_⟩
        · rw [hsplit rest]
          exact List.prefix_append _ _
        · rcases List.prefix_concat_iff.mp he with rfl | he
          · exact absurd rfl hne
          · exact hpast earlier he
      · rw [hsplit rest, hsplit (served limit (row past + 1) rest), ← hrow]
        exact ih _ (hnext (by omega))

theorem attends_iff {limit : Nat} (hlimit : 0 < limit) (judged served' : List (String × Bool)) :
    Attends limit judged served' ↔ served' = served limit 0 judged := by
  have h : Attends limit judged (served limit 0 judged) :=
    attends_served judged [] fun earlier he => by rwa [List.prefix_nil.mp he]
  exact ⟨h.unique, fun hs => hs ▸ h⟩

/-! ## What becomes of a text -/

theorem Refusal.reply_error (e : Refusal) : ∃ text, e.reply = .error text := by
  cases e <;> exact ⟨_, rfl⟩

namespace Session

variable (s : Session)

/-- decodes a text and carries the packet out -/
def carryOut (frame : String) : Routine (Except Refusal Unit) :=
  match ClientPacket.decode frame with
  | .error e => do
    Routine.emit (.note (.packetRefused "undecodable" "protocol_error"))
    return .error (.undecodable e)
  | .ok p => s.dispatch p

/-- what becomes of a text with its verdict -/
def attend : String × Bool → Routine Unit
  | (frame, true) => do
    match ← s.carryOut frame with
    | .ok () => return ()
    | .error e =>
      let _ ← s.send e.reply
  | (_, false) => do
    Routine.emit (.note .rateLimited)
    let _ ← s.send (.error "slow down")

theorem receive_eq (frame : String) : s.receive frame = s.attend (frame, true) := by
  show _ = (s.carryOut frame).bind _
  unfold receive carryOut
  cases ClientPacket.decode frame with
  | error e => rfl
  | ok p => rfl

/-- What a text with its verdict has led to, where memory was that of `v` before and is that of `v'`
now, and `es` are the effects.  Only an accepted text is carried out, and only one that fails or is
not accepted is answered with an error, once. -/
inductive Attended (v v' : World) (es : List Effect) : String × Bool → Prop
  | carriedOut {frame : String} {u : World} :
      (s.carryOut frame).Does v (.ok ()) u es → v'.hub = u.hub → Attended v v' es (frame, true)
  | failed {frame text : String} {e : Refusal} {u : World} {es₁ : List Effect} :
      (s.carryOut frame).Does v (.error e) u es₁ → v'.hub = u.hub → e.reply = .error text →
      (∀ n, heardAt n es = (LineEvent.frame (.error text)).at s.line n) →
      Attended v v' es (frame, true)
  | refused {frame : String} : v'.hub = v.hub →
      (∀ n, heardAt n es = (LineEvent.frame (.error "slow down")).at s.line n) →
      Attended v v' es (frame, false)

variable {s} {v v' : World} {es : List Effect}

theorem carryOut_failed {frame : String} {e : Refusal}
    (h : (s.carryOut frame).Does v (.error e) v' es) (n : Nat) : heardAt n es = [] := by
  unfold carryOut at h
  split at h
  · obtain ⟨rest, rfl, hdone⟩ := does_emit_bind h
    obtain ⟨-, -, rfl⟩ := does_done hdone
    rfl
  · obtain ⟨rfl, -⟩ := dispatch_refused h
    rfl

theorem attend_does {t : String × Bool} (h : (s.attend t).Does v () v' es) :
    s.Attended v v' es t := by
  obtain ⟨frame, accepted⟩ := t
  cases accepted with
  | true =>
    obtain ⟨es₁, es₂, rfl, x, u, hdone, hreply⟩ := does_bind h
    cases x with
    | ok _ =>
      obtain ⟨-, rfl, rfl⟩ := does_done hreply
      rw [List.append_nil]
      exact .carriedOut hdone rfl
    | error e =>
      obtain ⟨_, -, hsend⟩ := does_answer hreply
      obtain ⟨-, rfl, rfl⟩ := does_emit hsend
      obtain ⟨text, htext⟩ := e.reply_error
      refine .failed hdone (Effect.perform_hub _ _) htext fun n => ?_
      rw [heardAt_append, carryOut_failed hdone, htext, List.nil_append, heardAt_singleton]
      rfl
  | false =>
    obtain ⟨rest, rfl, hrest⟩ := does_emit_bind h
    obtain ⟨_, -, hsend⟩ := does_answer hrest
    obtain ⟨-, rfl, rfl⟩ := does_emit hsend
    refine .refused ((Effect.perform_hub _ _).trans (Effect.perform_hub _ _)) fun n => ?_
    rw [heardAt_cons, heardAt_singleton]
    rfl

/-- nothing that a store or a line answers changes what becomes of a text -/
theorem oblivious_attend (t : String × Bool) : (s.attend t).Oblivious := by
  obtain ⟨frame, accepted⟩ := t
  have hsend : ∀ p, ((s.send p).bind fun _ => done ()).Oblivious := fun p =>
    (parallel_emit _).drop (.done ())
  cases accepted with
  | true =>
    have hcarried : (s.carryOut frame).Oblivious := by
      unfold carryOut
      split
      · exact (parallel_tell _).bind fun _ => .done _
      · exact s.oblivious_dispatch _
    refine hcarried.bind fun x => ?_
    cases x with
    | error e => exact hsend _
    | ok _ => exact .done ()
  | false => exact (parallel_tell _).bind fun _ => hsend _

theorem attend_amid {out : Outside} {t : String × Bool}
    (h : (s.attend t).DoesAmid out v () v' es) : s.Attended v v' es t := by
  obtain ⟨u, hdoes, hu⟩ := (oblivious_attend t).does h rfl
  cases attend_does hdoes with
  | carriedOut hdone hv => exact .carriedOut hdone (hu.symm.trans hv)
  | failed hdone hv htext hheard => exact .failed hdone (hu.symm.trans hv) htext hheard
  | refused hv hheard => exact .refused (hu.symm.trans hv) hheard

/-! ## The loop -/

variable {limits : FloodLimits} {interval : Nat}

theorem react_accepted (verdicts : List Bool) (refused : Nat) (frame : String)
    (rest : List Occurrence) : s.react limits (true :: verdicts) refused (.text frame :: rest) =
      (s.attend (frame, true)).bind fun _ => s.react limits verdicts 0 rest := by
  rw [← receive_eq]
  rfl

theorem react_refused {refused : Nat} (hsmall : refused < 255) (verdicts : List Bool)
    (frame : String) (rest : List Occurrence) :
    s.react limits (false :: verdicts) refused (.text frame :: rest) =
      (s.attend (frame, false)).bind fun _ =>
        if limits.maxViolations ≤ refused + 1 then done ()
        else s.react limits verdicts (refused + 1) rest := by
  have hcount : min (refused + 1) 255 = refused + 1 := by omega
  have hreact : s.react limits (false :: verdicts) refused (.text frame :: rest) =
      (s.attend (frame, false)).bind fun _ =>
        if limits.maxViolations ≤ min (refused + 1) 255 then done ()
        else s.react limits verdicts (min (refused + 1) 255) rest := rfl
  rw [hreact, hcount]

/-- The loop serves the texts that are to come, where some of those that came last were refused in
a row.  The induction goes over the stream; a tick ends the argument, for then it is looked at. -/
theorem react_occurrences (hmax : limits.maxViolations ≤ 255) (stream : List Arrival)
    (elapsed : Nat) (verdicts : List Bool) (past : List (String × Bool))
    (hpast : row past < max 1 limits.maxViolations)
    (hlen : (texts stream).length ≤ verdicts.length)
    (hcalm : .tick ∉ (occurrences interval elapsed stream).take
      (lookedAt (max 1 limits.maxViolations) past
        (served (max 1 limits.maxViolations) (row past) ((texts stream).zip verdicts)))) :
    s.react limits verdicts (row past) (occurrences interval elapsed stream) =
      each s.attend
        (served (max 1 limits.maxViolations) (row past) ((texts stream).zip verdicts)) := by
  induction stream generalizing elapsed verdicts past with
  | nil => rfl
  | cons arrival rest ih =>
    cases arrival with
    | text frame =>
      obtain _ | ⟨accepted, verdicts⟩ := verdicts
      · cases hlen
      replace hlen : (texts rest).length ≤ verdicts.length := Nat.le_of_succ_le_succ hlen
      rw [texts, List.zip_cons_cons, occurrences] at hcalm ⊢
      cases accepted with
      | true =>
        have hrow := row_accepted past frame
        rw [served, lookedAt_cons, List.take_succ_cons, List.mem_cons, not_or, ← hrow] at hcalm
        have hrest := ih elapsed verdicts _ (by omega) hlen hcalm.2
        rw [hrow] at hrest
        rw [react_accepted, hrest]
        rfl
      | false =>
        have hrow := row_refused past frame
        rw [react_refused (by omega)]
        rw [served] at hcalm ⊢
        by_cases hcut : max 1 limits.maxViolations ≤ row past + 1
        · rw [if_pos hcut, if_pos (by omega)]
          rfl
        · rw [if_neg hcut, lookedAt_cons, List.take_succ_cons, List.mem_cons, not_or, ← hrow]
            at hcalm
          have hrest := ih elapsed verdicts _ (by omega) hlen hcalm.2
          rw [hrow] at hrest
          rw [if_neg hcut, if_neg (by omega), hrest]
          rfl
    | other => exact ih elapsed verdicts past hpast hlen hcalm
    | close => rfl
    | failure => rfl
    | wait ms =>
      rw [texts, occurrences] at hcalm ⊢
      cases hticks : ticksBetween interval elapsed (elapsed + ms) with
      | zero =>
        rw [hticks] at hcalm
        exact ih (elapsed + ms) verdicts past hpast hlen hcalm
      | succ k =>
        obtain ⟨m, hm⟩ := Nat.exists_eq_succ_of_ne_zero (lookedAt_pos hpast _).ne'
        rw [hticks, List.replicate_succ, List.cons_append, hm, List.take_succ_cons] at hcalm
        exact absurd List.mem_cons_self hcalm
    | pending =>
      obtain ⟨m, hm⟩ := Nat.exists_eq_succ_of_ne_zero (lookedAt_pos hpast _).ne'
      rw [occurrences, hm, List.take_succ_cons] at hcalm
      exact absurd List.mem_cons_self hcalm

end Session

/-! ## A whole connection -/

/-- Whatever a client sends and whatever the verdicts on its texts are, a connection serves the
texts one by one until the client is gone or as many of them as are allowed, but at least one, have
been refused in a row.  Then it tears the session down, once.  This is so unless a tick of the
keepalive timer is among what the connection looks at until then.  Of the texts that are served
exactly the accepted ones are carried out; one that fails is answered with one error, and so is one
that is refused. -/
theorem floods_are_cut_off (s : Session) (w : World) (interval elapsed : Nat)
    (stream : List Arrival) (verdicts : List Bool) (hmax : w.hub.flood.maxViolations ≤ 255)
    (hlen : (texts stream).length ≤ verdicts.length) :
    ∃ taken : List (String × Bool),
      (∀ taken', Attends (max 1 w.hub.flood.maxViolations) ((texts stream).zip verdicts) taken' ↔
        taken' = taken) ∧
      (.tick ∉ (occurrences interval elapsed stream).take
          (lookedAt (max 1 w.hub.flood.maxViolations) [] taken) →
        (s.serveOccurrences verdicts (occurrences interval elapsed stream)).step w =
          ((each s.attend taken).bind fun _ => disconnect s.token, w)) ∧
      ∀ t ∈ taken, ∀ (out : Outside) (v v' : World) (es : List Effect),
        (s.attend t).DoesAmid out v () v' es → s.Attended v v' es t := by
  have hlimit : 0 < max 1 w.hub.flood.maxViolations := by omega
  refine ⟨served (max 1 w.hub.flood.maxViolations) 0 ((texts stream).zip verdicts),
    attends_iff hlimit _, fun hcalm => ?_, fun _ _ _ _ _ _ h => Session.attend_amid h⟩
  have hreact := s.react_occurrences hmax stream elapsed verdicts [] hlimit hlen hcalm
  show ((s.react w.hub.flood verdicts (row []) _).bind fun _ => disconnect s.token, w) = _
  rw [hreact]
  rfl

open Act in
/-- Three refusals in a row are too many, and two are not.  The client speaks once more, which
nobody hears. -/
theorem floods_are_cut_off_after_three :
    (host.serveOccurrences [false, false, true, false, false, false, true]
      (occurrences 30000 0 [.text "a", .text "b", .other, .text "c", .text "d", .wait 10,
        .text "e", .text "f", .text "g", .close])).step .blank =
      ((each host.attend [("a", false), ("b", false), ("c", true), ("d", false), ("e", false),
        ("f", false)]).bind fun _ => disconnect host.token, .blank) := by
  obtain ⟨taken, hexact, hstep, -⟩ := floods_are_cut_off host .blank 30000 0
    [.text "a", .text "b", .other, .text "c", .text "d", .wait 10, .text "e", .text "f", .text "g",
      .close] [false, false, true, false, false, false, true] (by decide) (by decide)
  have htaken := (hexact [("a", false), ("b", false), ("c", true), ("d", false), ("e", false),
    ("f", false)]).mp ((attends_iff (by decide) _ _).mpr rfl)
  subst htaken
  exact hstep (by decide)

end RhythmLobby
