import RhythmLobby.Proofs.Hub.Trace

/-!
# What a line hears

An effect offers frames to lines and hangs lines up.  What a line hears is the same whatever its
state; how much of it comes through depends on the line.

* `heardAt`                 what some effects bring to one line;
* `Line.take`               one thing heard by a line;
* `Effect.perform_line`     a line after an effect;
* `Line.closed_foldl_take`  a line is closed once it has been hung up;
* `Line.events_foldl_take`  a healthy line that stays open records all that it hears.
-/

namespace RhythmLobby

/-! ## What is heard -/

/-- something for one line, as another line hears it -/
def LineEvent.at (event : LineEvent) (line n : Nat) : List LineEvent :=
  if line = n then [event] else []

/-- what an effect brings to a line -/
def Effect.at (n : Nat) : Effect → List LineEvent
  | .deliver p s => (LineEvent.frame p).at s.line n
  | .fanOut p sessions => sessions.flatMap fun s => (LineEvent.frame p).at s.line n
  | .offer p line => (LineEvent.frame p).at line n
  | .hangUp line => LineEvent.hangUp.at line n
  | _ => []

/-- what some effects bring to a line, one after another -/
def heardAt (n : Nat) (es : List Effect) : List LineEvent := es.flatMap (Effect.at n)

@[simp] theorem heardAt_nil (n : Nat) : heardAt n [] = [] := rfl

theorem heardAt_cons (n : Nat) (e : Effect) (es : List Effect) :
    heardAt n (e :: es) = e.at n ++ heardAt n es := List.flatMap_cons

theorem heardAt_append (n : Nat) (es es' : List Effect) :
    heardAt n (es ++ es') = heardAt n es ++ heardAt n es' := List.flatMap_append

@[simp] theorem heardAt_singleton (n : Nat) (e : Effect) : heardAt n [e] = e.at n :=
  List.append_nil _

theorem LineEvent.mem_at {event e : LineEvent} {line n : Nat} :
    e ∈ event.at line n ↔ line = n ∧ e = event := by
  unfold LineEvent.at
  split
  · rename_i hline
    simp [hline]
  · rename_i hline
    simp [hline]

/-- something for the line of one session, as another one hears it -/
theorem LineEvent.at_line {s s' : Session} (happart : s.line = s'.line → s = s')
    (event : LineEvent) : event.at s.line s'.line = if s' = s then [event] else [] := by
  by_cases heq : s' = s
  · rw [if_pos heq, heq, LineEvent.at, if_pos rfl]
  · rw [if_neg heq, LineEvent.at, if_neg fun hline => heq (happart hline).symm]

theorem mem_heardAt {n : Nat} {es : List Effect} {event : LineEvent} :
    event ∈ heardAt n es ↔ ∃ e ∈ es, event ∈ e.at n := List.mem_flatMap

theorem heardAt_eq_nil {n : Nat} {es : List Effect} (h : ∀ e ∈ es, e.at n = []) :
    heardAt n es = [] := List.flatMap_eq_nil_iff.mpr h

/-! ## One line -/

namespace Line

/-- the line once it has heard something, if it comes through -/
def take (l : Line) : LineEvent → Line
  | .frame p =>
    match l.write p with
    | .ok l => l
    | .error _ => l
  | .hangUp => l.hangUp

theorem take_write {l : Line} {p : ServerPacket} (h : l.fault? = none) :
    l.write p = .ok { l with events := l.events ++ [.frame p] } := by
  rw [write, h]

theorem take_frame (l : Line) (p : ServerPacket) : (l.take (.frame p)).state = l.state ∧
    (l.take (.frame p)).closed = l.closed := by
  unfold take write
  cases l.fault? with
  | none => exact ⟨rfl, rfl⟩
  | some e => exact ⟨rfl, rfl⟩

theorem state_foldl_take (l : Line) (events : List LineEvent) :
    (events.foldl take l).state = l.state := by
  induction events generalizing l with
  | nil => rfl
  | cons event events ih =>
    rw [List.foldl_cons, ih]
    cases event with
    | frame p => exact (l.take_frame p).1
    | hangUp => rfl

theorem closed_foldl_take (l : Line) (events : List LineEvent) :
    (events.foldl take l).closed = true ↔ l.closed = true ∨ .hangUp ∈ events := by
  induction events generalizing l with
  | nil => simp
  | cons event events ih =>
    rw [List.foldl_cons, ih]
    cases event with
    | frame p =>
      rw [(l.take_frame p).2]
      simp
    | hangUp => simp [take, hangUp]

theorem events_foldl_take {l : Line} {events : List LineEvent} (hstate : l.state = .healthy)
    (hopen : (events.foldl take l).closed = false) :
    (events.foldl take l).events = l.events ++ events := by
  induction events generalizing l with
  | nil => exact (List.append_nil _).symm
  | cons event events ih =>
    rw [List.foldl_cons] at hopen ⊢
    have hnot := mt (closed_foldl_take l (event :: events)).mpr (by simp [hopen])
    rw [not_or, List.mem_cons, not_or] at hnot
    cases event with
    | hangUp => exact absurd rfl hnot.2.1
    | frame p =>
      have hfault : l.fault? = none := by simp [fault?, hnot.1, hstate]
      have htake : l.take (.frame p) = { l with events := l.events ++ [.frame p] } := by
        rw [take, take_write hfault]
      rw [htake] at hopen ⊢
      rw [ih (l := { l with events := l.events ++ [.frame p] }) hstate hopen]
      exact List.append_assoc ..

/-- a healthy line has recorded all that it heard until it was hung up -/
theorem events_foldl_take_hangUp {l : Line} {events : List LineEvent} (hstate : l.state = .healthy)
    (hopen : l.closed = false) (hnot : LineEvent.hangUp ∉ events) :
    ((events ++ [LineEvent.hangUp]).foldl take l).events = l.events ++ events ++ [.hangUp] := by
  have hstill : (events.foldl take l).closed = false := by
    refine Bool.eq_false_iff.mpr fun hclosed => ?_
    rcases (closed_foldl_take l events).mp hclosed with h | h
    · rw [hopen] at h
      cases h
    · exact hnot h
  rw [List.foldl_append, ← events_foldl_take hstate hstill]
  rfl

end Line

/-! ## All lines -/

namespace World

theorem update_lines (w : World) (u : Cache.Update) : (w.update u).lines = w.lines := by
  unfold update
  split
  rename_i ok cache _
  cases ok <;> rfl

/-- a line after a frame has been offered to one of the lines -/
theorem offer_line (w : World) (p : ServerPacket) (line n : Nat) :
    (w.offer p line).lines[n]? =
      w.lines[n]?.map fun l => ((LineEvent.frame p).at line n).foldl Line.take l := by
  unfold offer write LineEvent.at
  cases hl : w.lines[line]? with
  | none =>
    by_cases hn : line = n
    · subst hn
      simp [hl]
    · simp [hn]
  | some l =>
    have hlt := (List.getElem?_eq_some_iff.mp hl).1
    by_cases hn : line = n
    · subst hn
      rw [if_pos rfl, hl]
      show _ = some (l.take (.frame p))
      unfold Line.take
      cases hw : l.write p with
      | error e => simp [hw, Except.map, hl]
      | ok l' => simp [hw, Except.map, hlt]
    · rw [if_neg hn]
      cases hw : l.write p with
      | error e => simp [hw, Except.map]
      | ok l' => simp [hw, Except.map, hn]

theorem deliver_line (w : World) (p : ServerPacket) (s : Session) (n : Nat) :
    (w.deliver p s).2.lines[n]? =
      w.lines[n]?.map fun l => ((LineEvent.frame p).at s.line n).foldl Line.take l := by
  rw [← offer_line]
  unfold deliver offer
  cases w.write p s.line with
  | ok w' => rfl
  | error e => rfl

theorem deliverEach_line (p : ServerPacket) (sessions : List Session) (w : World) (n : Nat) :
    (w.deliverEach p sessions).2.lines[n]? = w.lines[n]?.map fun l =>
      (sessions.flatMap fun s => (LineEvent.frame p).at s.line n).foldl Line.take l := by
  induction sessions generalizing w with
  | nil => simp [deliverEach]
  | cons s rest ih =>
    show ((w.deliver p s).2.deliverEach p rest).2.lines[n]? = _
    rw [ih, deliver_line, Option.map_map]
    simp only [List.flatMap_cons, List.foldl_append, Function.comp_def]

theorem fanOut_line (w : World) (p : ServerPacket) (sessions : List Session) (n : Nat) :
    (w.fanOut p sessions).2.lines[n]? = w.lines[n]?.map fun l =>
      (sessions.flatMap fun s => (LineEvent.frame p).at s.line n).foldl Line.take l := by
  rw [← deliverEach_line]
  unfold fanOut
  split
  · rename_i hempty
    rw [List.isEmpty_iff.mp hempty]
    rfl
  · rfl

end World

theorem Effect.perform_line (e : Effect) (w : World) (n : Nat) :
    (e.perform w).lines[n]? = w.lines[n]?.map fun l => (e.at n).foldl Line.take l := by
  have hnothing : w.lines[n]? = w.lines[n]?.map fun l => [].foldl Line.take l := by simp
  cases e with
  | update u =>
    rw [perform, World.update_lines]
    exact hnothing
  | deliver p s => exact w.deliver_line p s n
  | fanOut p sessions => exact w.fanOut_line p sessions n
  | offer p line => exact w.offer_line p line n
  | hangUp line =>
    show (w.lines.modify line Line.hangUp)[n]? = _
    rw [List.getElem?_modify, Effect.at, LineEvent.at]
    by_cases hn : line = n
    · simp only [if_pos hn]
      rfl
    · simp only [if_neg hn]
      exact congrArg (Option.map · _) rfl
  | note h => exact hnothing
  | gaugeUsers k => exact hnothing
  | gaugeRooms k => exact hnothing

end RhythmLobby
