import RhythmLobby.Proofs.Hub.Hearing

/-!
# A packet for many sessions

A packet for many sessions is as good as single packets for each of them, in whatever order: what
becomes of one of them depends on the line of its session alone.

* `World.isHealthy`         a frame for a session comes through;
* `World.deliverSingly`     single packets, one after another;
* `World.Offered`           what packets for some sessions leave of a world;
* `deliverEach_eq`          one packet for all is single packets for each;
* `offered_fanOut`, `offered_deliverSingly`   both ways leave the same;
* `Offered.total`           every session is counted once;
* `Offered.perm`            the order of the sessions does not matter;
* `fan_out_isolates`        how many packets come through, where, and what is counted.
-/

namespace RhythmLobby

/-! ## Counters -/

namespace Happening

/-- a frame could not be written -/
def isFailure : Happening → Bool
  | sendFailed _ => true
  | _ => false

/-- a frame was written, or could not be -/
def isWrite : Happening → Bool
  | frameSent => true
  | h => h.isFailure

end Happening

namespace Metrics

/-- the counter of frames that were written -/
def sent (m : Metrics) : Nat := m.happenings.count .frameSent

/-- the counter of frames that could not be written for one kind of reason -/
def failed (m : Metrics) (kind : String) : Nat := m.happenings.count (.sendFailed kind)

/-- the counters of frames that could not be written, for all kinds together -/
def failures (m : Metrics) : Nat := m.happenings.countP Happening.isFailure

/-- what was counted of frames -/
def writes (m : Metrics) : List Happening := m.happenings.filter Happening.isWrite

theorem sent_eq (m : Metrics) : m.sent = m.writes.count .frameSent :=
  (List.count_filter rfl).symm

theorem failed_eq (m : Metrics) (kind : String) :
    m.failed kind = m.writes.count (.sendFailed kind) :=
  (List.count_filter rfl).symm

theorem failures_eq (m : Metrics) : m.failures = m.writes.countP Happening.isFailure := by
  rw [writes, List.countP_filter, failures]
  refine List.countP_congr fun h _ => ?_
  cases h <;> simp [Happening.isFailure, Happening.isWrite]

end Metrics

/-! ## Lines -/

namespace Line

/-- the line takes frames -/
def isHealthy (l : Line) : Bool := l.state = .healthy ∧ l.closed = false

theorem fault?_eq_none_iff {l : Line} : l.fault? = none ↔ l.isHealthy = true := by
  unfold fault? isHealthy
  cases l.closed with
  | true => simp
  | false => cases l.state <;> simp

theorem fault?_congr {l l' : Line} (hstate : l'.state = l.state) (hclosed : l'.closed = l.closed) :
    l'.fault? = l.fault? := by
  rw [fault?, fault?, hstate, hclosed]

/-- the texts that came through -/
def texts (l : Line) : List String := l.frames.map ServerPacket.text

/-- the line once it has been offered a frame several times -/
def given (l : Line) (p : ServerPacket) (times : Nat) : Line :=
  { l with events := l.events ++ List.replicate (if l.isHealthy then times else 0) (.frame p) }

theorem given_zero (l : Line) (p : ServerPacket) : l.given p 0 = l := by
  simp [given]

theorem given_take (l : Line) (p : ServerPacket) (times : Nat) :
    (l.take (.frame p)).given p times = l.given p (times + 1) := by
  cases hl : l.isHealthy with
  | true =>
    have htake : l.take (.frame p) = { l with events := l.events ++ [.frame p] } := by
      rw [take, take_write (fault?_eq_none_iff.mpr hl)]
    have hstill : (l.take (.frame p)).isHealthy = true := by
      rw [htake]
      exact hl
    rw [given, hstill, htake, given, hl]
    simp [List.replicate_succ]
  | false =>
    have htake : l.take (.frame p) = l := by
      obtain ⟨e, he⟩ := Option.ne_none_iff_exists'.mp
        (mt fault?_eq_none_iff.mp (Bool.eq_false_iff.mp hl))
      rw [take, write, he]
    rw [htake, given, given, hl]
    rfl

theorem texts_given (l : Line) (p : ServerPacket) (times : Nat) : (l.given p times).texts =
    l.texts ++ List.replicate (if l.isHealthy then times else 0) p.text := by
  simp [texts, frames, given, List.filterMap_append]

end Line

/-! ## One packet -/

namespace World

/-- why a frame for a session fails now, if it does; without a line every frame fails -/
def fault? (w : World) (s : Session) : Option WriteError :=
  match w.lines[s.line]? with
  | none => some .closed
  | some l => l.fault?

/-- the line of the session takes frames -/
def isHealthy (w : World) (s : Session) : Bool := w.lines[s.line]?.any Line.isHealthy

/-- a frame for the session fails for one kind of reason -/
def failsFor (w : World) (kind : String) (s : Session) : Bool :=
  (w.fault? s).any fun e => e.kind = kind

/-- what is counted when a frame for a session goes out now -/
def mark (w : World) (s : Session) : Happening :=
  match w.fault? s with
  | none => .frameSent
  | some e => .sendFailed e.kind

theorem isHealthy_eq (w : World) (s : Session) : w.isHealthy s = (w.fault? s).isNone := by
  unfold isHealthy fault?
  cases w.lines[s.line]? with
  | none => rfl
  | some l =>
    dsimp only [Option.any_some]
    rw [Bool.eq_iff_iff, Option.isNone_iff_eq_none, Line.fault?_eq_none_iff]

theorem deliver_eq_fault (w : World) (p : ServerPacket) (s : Session) :
    (w.deliver p s).1 = (w.fault? s).isNone ∧
      (w.deliver p s).2.metrics = w.metrics.note (w.mark s) := by
  unfold deliver mark fault? write Line.write
  cases w.lines[s.line]? with
  | none => exact ⟨rfl, rfl⟩
  | some l =>
    dsimp only
    cases l.fault? with
    | none => exact ⟨rfl, rfl⟩
    | some e => exact ⟨rfl, rfl⟩

theorem deliver_fst (w : World) (p : ServerPacket) (s : Session) :
    (w.deliver p s).1 = w.isHealthy s := by
  rw [(w.deliver_eq_fault p s).1, isHealthy_eq]

theorem fault?_deliver (w : World) (p : ServerPacket) (s s' : Session) :
    (w.deliver p s).2.fault? s' = w.fault? s' := by
  rw [fault?, deliver_line, fault?]
  cases w.lines[s'.line]? with
  | none => rfl
  | some l =>
    by_cases hn : s.line = s'.line
    · simpa [LineEvent.at, hn] using Line.fault?_congr (l.take_frame p).1 (l.take_frame p).2
    · simp [LineEvent.at, hn]

theorem mark_deliver (w : World) (p : ServerPacket) (s : Session) :
    (w.deliver p s).2.mark = w.mark := by
  funext s'
  rw [mark, fault?_deliver, mark]

theorem isHealthy_deliver (w : World) (p : ServerPacket) (s : Session) :
    (w.deliver p s).2.isHealthy = w.isHealthy := by
  funext s'
  rw [isHealthy_eq, fault?_deliver, isHealthy_eq]

theorem isWrite_mark (w : World) (s : Session) : (w.mark s).isWrite = true := by
  unfold mark
  split <;> rfl

/-! ## Packets for some sessions -/

/-- single packets for each of the sessions, one after another, and which of them were written -/
def deliverSingly (w : World) (p : ServerPacket) : List Session → List Bool × World
  | [] => ([], w)
  | s :: rest =>
    let (ok, w) := w.deliver p s
    let (oks, w) := deliverSingly w p rest
    (ok :: oks, w)

/-- What is left of a world once a packet has been offered to some sessions: each line has taken it
as often as it was offered, if it takes frames at all, and every offer is counted. -/
structure Offered (w : World) (p : ServerPacket) (sessions : List Session) (w' : World) : Prop where
  hub : w'.hub = w.hub
  cache : w'.cache = w.cache
  lines : w'.lines = w.lines.mapIdx fun n l => l.given p (sessions.countP (·.line = n))
  writes : w'.metrics.writes = w.metrics.writes ++ sessions.map w.mark

variable {w w' w₁ w₂ : World} {p : ServerPacket} {s : Session} {sessions order : List Session}

theorem offered_nil (w : World) (p : ServerPacket) : w.Offered p [] w := by
  refine ⟨rfl, rfl, List.ext_getElem? fun n => ?_, (List.append_nil _).symm⟩
  simp [List.getElem?_mapIdx, Line.given_zero]

theorem Offered.cons (h : (w.deliver p s).2.Offered p sessions w') :
    w.Offered p (s :: sessions) w' := by
  refine ⟨h.hub.trans (w.deliver_hub p s), h.cache.trans (w.deliver_cache p s), ?_, ?_⟩
  · refine h.lines.trans (List.ext_getElem? fun n => ?_)
    rw [List.getElem?_mapIdx, List.getElem?_mapIdx, deliver_line, Option.map_map]
    refine congrArg (Option.map · w.lines[n]?) (funext fun l => ?_)
    by_cases hn : s.line = n
    · simp [LineEvent.at, hn, Line.given_take]
    · simp [LineEvent.at, hn]
  · rw [h.writes, (w.deliver_eq_fault p s).2, mark_deliver]
    simp [Metrics.writes, Metrics.note, isWrite_mark]

theorem Offered.note (h : w.Offered p sessions w') (n : Nat) :
    w.Offered p sessions (w'.note (.fanOut n)) := by
  refine ⟨h.hub, h.cache, h.lines, ?_⟩
  rw [← h.writes]
  simp [World.note, Metrics.note, Metrics.writes, Happening.isWrite, Happening.isFailure]

theorem offered_deliverSingly (p : ServerPacket) (sessions : List Session) (w : World) :
    w.Offered p sessions (w.deliverSingly p sessions).2 := by
  induction sessions generalizing w with
  | nil => exact w.offered_nil p
  | cons s rest ih => exact (ih (w.deliver p s).2).cons

theorem deliverEach_eq (p : ServerPacket) (sessions : List Session) (w : World) :
    w.deliverEach p sessions =
      ((w.deliverSingly p sessions).1.count true, (w.deliverSingly p sessions).2) := by
  induction sessions generalizing w with
  | nil => rfl
  | cons s rest ih =>
    rw [deliverEach, deliverSingly]
    dsimp only
    rw [ih]
    cases (w.deliver p s).1 with
    | true => rw [List.count_cons_self, if_pos rfl]
    | false => rw [List.count_cons_of_ne Bool.false_ne_true, if_neg Bool.false_ne_true]

theorem offered_fanOut (w : World) (p : ServerPacket) (sessions : List Session) :
    w.Offered p sessions (w.fanOut p sessions).2 := by
  unfold fanOut
  split
  · rename_i hempty
    rw [List.isEmpty_iff.mp hempty]
    exact w.offered_nil p
  · have hsingle := offered_deliverSingly p sessions w
    dsimp only
    rw [deliverEach_eq]
    exact hsingle.note sessions.length

/-! ## Who was reached -/

theorem deliverSingly_fst (p : ServerPacket) (sessions : List Session) (w : World) :
    (w.deliverSingly p sessions).1 = sessions.map w.isHealthy := by
  induction sessions generalizing w with
  | nil => rfl
  | cons s rest ih =>
    show (w.deliver p s).1 :: ((w.deliver p s).2.deliverSingly p rest).1 = _
    rw [ih, deliver_fst, isHealthy_deliver, List.map_cons]

theorem fanOut_fst (w : World) (p : ServerPacket) (sessions : List Session) :
    (w.fanOut p sessions).1 = sessions.countP w.isHealthy := by
  unfold fanOut
  split
  · rename_i hempty
    rw [List.isEmpty_iff.mp hempty]
    rfl
  · dsimp only
    rw [deliverEach_eq, deliverSingly_fst, List.count, List.countP_map]
    exact List.countP_congr fun s _ => by simp

/-! ## What is counted -/

/-- what is counted when packets go out, if one knows it of those that fail and of those that do
not -/
theorem countP_mark {f : Happening → Bool} {g : Session → Bool}
    (hsent : ∀ s, w.fault? s = none → f .frameSent = g s)
    (hfailed : ∀ s e, w.fault? s = some e → f (.sendFailed e.kind) = g s)
    (sessions : List Session) : (sessions.map w.mark).countP f = sessions.countP g := by
  rw [List.countP_map]
  refine List.countP_congr fun s _ => ?_
  show f (w.mark s) = true ↔ g s = true
  rw [mark]
  cases h : w.fault? s with
  | none => rw [hsent s h]
  | some e => rw [hfailed s e h]

theorem count_sent_mark (w : World) (sessions : List Session) :
    (sessions.map w.mark).count .frameSent = sessions.countP w.isHealthy := by
  refine countP_mark (fun s h => ?_) (fun s e h => ?_) sessions
  · rw [isHealthy_eq, h]
    rfl
  · rw [isHealthy_eq, h]
    rfl

theorem count_failed_mark (w : World) (kind : String) (sessions : List Session) :
    (sessions.map w.mark).count (.sendFailed kind) = sessions.countP (w.failsFor kind) := by
  refine countP_mark (fun s h => ?_) (fun s e h => ?_) sessions
  · rw [failsFor, h]
    rfl
  · rw [failsFor, h, Option.any_some, Bool.eq_iff_iff, beq_iff_eq, decide_eq_true_eq,
      Happening.sendFailed.injEq]

theorem countP_failure_mark (w : World) (sessions : List Session) :
    (sessions.map w.mark).countP Happening.isFailure =
      sessions.countP fun s => ¬ w.isHealthy s = true := by
  refine countP_mark (fun s h => ?_) (fun s e h => ?_) sessions
  · rw [isHealthy_eq, h]
    rfl
  · rw [isHealthy_eq, h]
    rfl

theorem Offered.sent (h : w.Offered p sessions w') :
    w'.metrics.sent = w.metrics.sent + sessions.countP w.isHealthy := by
  rw [Metrics.sent_eq, h.writes, List.count_append, count_sent_mark, ← Metrics.sent_eq]

theorem Offered.failed (h : w.Offered p sessions w') (kind : String) :
    w'.metrics.failed kind = w.metrics.failed kind + sessions.countP (w.failsFor kind) := by
  rw [Metrics.failed_eq, h.writes, List.count_append, count_failed_mark, ← Metrics.failed_eq]

theorem Offered.total (h : w.Offered p sessions w') : w'.metrics.sent + w'.metrics.failures =
    w.metrics.sent + w.metrics.failures + sessions.length := by
  have hfailures : w'.metrics.failures =
      w.metrics.failures + sessions.countP fun s => ¬ w.isHealthy s = true := by
    rw [Metrics.failures_eq, h.writes, List.countP_append, countP_failure_mark,
      ← Metrics.failures_eq]
  have hlength := sessions.length_eq_countP_add_countP w.isHealthy
  have hsent := h.sent
  omega

/-! ## In any order -/

/-- the same of memory, cache, lines and counted frames -/
structure SameWrites (w w' : World) : Prop where
  hub : w'.hub = w.hub
  cache : w'.cache = w.cache
  lines : w'.lines = w.lines
  sent : w'.metrics.sent = w.metrics.sent
  failed : ∀ kind, w'.metrics.failed kind = w.metrics.failed kind

theorem Offered.perm (h₁ : w.Offered p sessions w₁) (h₂ : w.Offered p order w₂)
    (hperm : order.Perm sessions) : w₁.SameWrites w₂ where
  hub := h₂.hub.trans h₁.hub.symm
  cache := h₂.cache.trans h₁.cache.symm
  lines := by
    rw [h₁.lines, h₂.lines]
    simp only [hperm.countP_eq]
  sent := by rw [h₁.sent, h₂.sent, hperm.countP_eq]
  failed kind := by rw [h₁.failed, h₂.failed, hperm.countP_eq]

theorem Offered.line (h : w.Offered p sessions w') {n : Nat} {l : Line}
    (hl : w.lines[n]? = some l) :
    w'.lines[n]? = some (l.given p (sessions.countP (·.line = n))) := by
  rw [h.lines, List.getElem?_mapIdx, hl]
  rfl

end World

/-- A packet for many sessions comes through to each of them whose line takes frames, as often as
the session is listed, and to nobody else.  The number that comes back, the lines and the counters
are those of single packets for the same sessions in any order. -/
theorem fan_out_isolates (w : World) (p : ServerPacket) (sessions order : List Session)
    (horder : order.Perm sessions) :
    let many := w.fanOut p sessions
    let single := w.deliverSingly p order
    many.1 = sessions.countP w.isHealthy ∧
    (∀ (n : Nat) (l : Line), w.lines[n]? = some l →
      ∃ l' : Line, many.2.lines[n]? = some l' ∧ l'.state = l.state ∧ l'.closed = l.closed ∧
        l'.texts = l.texts ++
          List.replicate (if l.isHealthy then sessions.countP (·.line = n) else 0) p.text) ∧
    many.2.metrics.sent = w.metrics.sent + many.1 ∧
    (∀ kind, many.2.metrics.failed kind =
      w.metrics.failed kind + sessions.countP (w.failsFor kind)) ∧
    many.2.metrics.sent + many.2.metrics.failures =
      w.metrics.sent + w.metrics.failures + sessions.length ∧
    single.1 = order.map w.isHealthy ∧ many.1 = single.1.count true ∧
    many.2.SameWrites single.2 := by
  have hmany := w.offered_fanOut p sessions
  have hcount := w.fanOut_fst p sessions
  have hsingle := World.deliverSingly_fst p order w
  have hsame := hmany.perm (World.offered_deliverSingly p order w) horder
  refine ⟨hcount, fun n l hl => ⟨_, hmany.line hl, rfl, rfl, l.texts_given p _⟩, ?_,
    hmany.failed, hmany.total, hsingle, ?_, hsame⟩
  · rw [hcount]
    exact hmany.sent
  · rw [hcount, hsingle, ← horder.countP_eq, List.count, List.countP_map]
    exact List.countP_congr fun s _ => by simp

/-! ## A mixed party -/

/-- lines of all kinds: a healthy one, one that refuses, one that never ends a write, and one that
has been hung up -/
def World.party : World :=
  { World.start (.start .empty .standard .standard 0) with
    lines := [.opened .healthy, .opened .broken, .opened .stalled, (Line.opened .healthy).hangUp] }

/-- a session with a line -/
def Session.onLine (line : Nat) : Session :=
  ⟨line, "T", ⟨1, "S", "ann", 0, 0, "IS", ""⟩, line⟩

theorem fan_out_isolates_party :
    let sessions : List Session := [.onLine 2, .onLine 0, .onLine 3, .onLine 1, .onLine 0]
    let many := World.party.fanOut .pong sessions
    let single := World.party.deliverSingly .pong sessions.reverse
    many.1 = 2 ∧ (many.2.lines.map Line.texts) =
      [[ServerPacket.pong.text, ServerPacket.pong.text], [], [], []] ∧
    many.2.metrics.sent = 2 ∧ many.2.metrics.failed "timeout" = 1 ∧
    single.1 = [true, false, false, true, false] ∧ many.2.SameWrites single.2 := by
  intro sessions many single
  obtain ⟨hcount, hlines, hsent, hfailed, -, hsingle, -, hsame⟩ :=
    fan_out_isolates World.party .pong sessions sessions.reverse (List.reverse_perm sessions)
  refine ⟨hcount.trans ?_, ?_, ?_, ?_, hsingle.trans ?_, hsame⟩
  · decide
  · decide +kernel
  · decide +kernel
  · decide +kernel
  · decide

end RhythmLobby
