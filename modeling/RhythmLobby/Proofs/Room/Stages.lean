import RhythmLobby.Proofs.Room.Books
import RhythmLobby.Proofs.Room.Calm

/-!
# How far a call on the rooms has come

Rooms are made, entered, left and closed in several steps, between which others may take theirs.

* `RoomCall`            the calls that change who is where;
* `Stage`               what a call has done and what it still has to do;
* `Stage.Turn`          the steps that change memory, each from one stage to the next;
* `RoomCall.keeps`      the task of every call takes such steps only, and ends at rest.
-/

namespace RhythmLobby

/-- the calls that change who is in which room -/
inductive RoomCall where
  | create (request : RoomRequest) (host : PlayerProfile)
  | join (room : Int32) (profile : PlayerProfile) (guess : Option String)
  | leave (user : Int32)
  | remove (room : Int32) (caller : Option Int32)

/-- what a call has done, and what it still has to do -/
inductive Stage where
  /-- nothing remains to be done -/
  | idle
  /-- a room is to be made -/
  | starting (user : Int32)
  /-- a user is to join or to leave -/
  | busy (user : Int32)
  /-- the new room has its id -/
  | named (user id : Int32)
  /-- and its host has its place -/
  | opening (user id : Int32)
  /-- a user has a place and is to join the room -/
  | waiting (user id : Int32)
  /-- a user has given its place back and is to leave the room -/
  | leaving (user id : Int32)
  /-- a room is closed and can still be found -/
  | closing (id : Int32) (members : List Int32)
  /-- a room cannot be found any more, and places in it remain -/
  | releasing (id : Int32) (members : List Int32)
  deriving DecidableEq

/-- the room that a reference stands for -/
def Hub.Has (h : Hub) (ref : RoomRef) (r : Room) : Prop :=
  h.rooms[ref.key]? = some r ∧ r.id = ref.id

namespace Hub.Has

variable {h : Hub} {ref : RoomRef} {r r' : Room}

theorem room (hr : h.Has ref r) : h.room ref = r := by
  rw [Hub.room, hr.1]
  rfl

theorem lt (hr : h.Has ref r) : ref.key < h.rooms.length :=
  (List.getElem?_eq_some_iff.mp hr.1).1

theorem mem (hr : h.Has ref r) : r ∈ h.rooms := List.mem_of_getElem? hr.1

end Hub.Has

namespace Stage

/-- the user on whose behalf the call is made, until it is no more concerned -/
def user? : Stage → Option Int32
  | starting user => some user
  | busy user => some user
  | named user _ => some user
  | opening user _ => some user
  | waiting user _ => some user
  | leaving user _ => some user
  | _ => none

/-- the id of a room that is still to be made -/
def promised? : Stage → Option Int32
  | named _ id => some id
  | opening _ id => some id
  | _ => none

/-- whether an id is still to be taken -/
def isStarting : Stage → Bool
  | starting _ => true
  | _ => false

/-- stages in which a call may end -/
def AtRest : Stage → Prop
  | idle => True
  | releasing _ members => members = []
  | _ => False

/-- stages in which a call may give up, having changed nothing -/
def Free : Stage → Prop
  | starting _ => True
  | busy _ => True
  | named _ _ => True
  | _ => False

/-- the steps of a call that look at memory -/
inductive Turn (h : Hub) : Stage → Hub → Stage → Prop
  | stay (s : Stage) : Turn h s h s
  | giveUp {s : Stage} : s.Free → Turn h s h idle
  | take (user : Int32) :
      Turn h (starting user) (Rooms.takeId h).2 (named user h.nextRoom)
  | reserve {user id : Int32} : h.memberships.get? user = none →
      Turn h (named user id) { h with memberships := h.memberships.insert user id }
        (opening user id)
  | enter {user : Int32} {r : Room} : r.closed = false → r.ids = [user] →
      Turn h (opening user r.id) (Rooms.enter r h).2 idle
  | wait {user : Int32} {ref : RoomRef} {r : Room} : h.Has ref r →
      h.memberships.get? user = none →
      Turn h (busy user) { h with memberships := h.memberships.insert user ref.id }
        (waiting user ref.id)
  | join {user : Int32} {ref : RoomRef} {r r' : Room} : h.Has ref r → r.closed = false →
      r'.id = r.id → r'.closed = false → r'.ids = r.ids ++ [user] →
      Turn h (waiting user ref.id) (h.setRoom ref r') idle
  | refund (user id : Int32) : Turn h (waiting user id) (Rooms.release user id h) idle
  | placeless {user : Int32} : h.memberships.get? user = none →
      Turn h (busy user) (Rooms.vacate user h).2 idle
  | vacate {user id : Int32} : h.memberships.get? user = some id →
      Turn h (busy user) (Rooms.vacate user h).2 (leaving user id)
  | lost {user id : Int32} : h.openRooms.get? id = none → Turn h (leaving user id) h idle
  | miss {user : Int32} {ref : RoomRef} {r : Room} : h.Has ref r →
      r.closed = true ∨ user ∉ r.ids → Turn h (leaving user ref.id) h idle
  | leave {user : Int32} {ref : RoomRef} {r r' : Room} : h.Has ref r → r.closed = false →
      r'.id = r.id → r'.closed = false → r'.ids = r.ids.filter (· ≠ user) → r'.ids ≠ [] →
      Turn h (leaving user ref.id) (h.setRoom ref r') idle
  | empty {user : Int32} {ref : RoomRef} {r r' : Room} : h.Has ref r → r.closed = false →
      r'.id = r.id → r'.closed = true → r.ids.filter (· ≠ user) = [] → r'.ids = [] →
      Turn h (leaving user ref.id) (h.setRoom ref r') (closing ref.id [])
  | close {ref : RoomRef} {r r' : Room} : h.Has ref r → r.closed = false →
      r'.id = r.id → r'.closed = true → r'.ids = [] →
      Turn h idle (h.setRoom ref r') (closing ref.id r.ids)
  | drop (id : Int32) (members : List Int32) :
      Turn h (closing id members) (Rooms.drop id h) (releasing id members)
  | release (id user : Int32) (members : List Int32) :
      Turn h (releasing id (user :: members)) (Rooms.release user id h) (releasing id members)

/-! ## The discipline of the calls -/

/-- what can be found is a room with its id -/
def Found (h : Hub) : Prop :=
  ∀ {id ref}, h.openRooms.get? id = some ref → ref.id = id ∧ ∃ r, h.Has ref r

/-- rooms remain where they are and keep their ids -/
def Drift (h h' : Hub) : Prop := ∀ {ref r}, h.Has ref r → ∃ r', h'.Has ref r'

theorem drift_of_rooms {h h' : Hub} (hr : h'.rooms = h.rooms) : Drift h h' := by
  intro ref r hhas
  exact ⟨r, by rw [hr]; exact hhas.1, hhas.2⟩

theorem drift_setRoom {h : Hub} {ref : RoomRef} {r r' : Room} (hr : h.Has ref r)
    (hid : r'.id = r.id) : Drift h (h.setRoom ref r') := by
  intro ref' q hq
  by_cases hk : ref.key = ref'.key
  · refine ⟨r', ?_, ?_⟩
    · show (h.rooms.set ref.key r')[ref'.key]? = some r'
      rw [← hk]
      exact List.getElem?_set_self hr.lt
    · have hsame : r = q := by
        have hq' := hq.1
        rw [← hk, hr.1] at hq'
        exact Option.some.inj hq'
      rw [hid, hsame]
      exact hq.2
  · exact ⟨q, (List.getElem?_set_ne hk).trans hq.1, hq.2⟩

theorem drift_enter (h : Hub) (r : Room) : Drift h (Rooms.enter r h).2 := by
  intro ref q hq
  exact ⟨q, (List.getElem?_append_left hq.lt).trans hq.1, hq.2⟩

theorem release_rooms (user id : Int32) (h : Hub) : (Rooms.release user id h).rooms = h.rooms := by
  unfold Rooms.release
  split <;> rfl

theorem release_openRooms (user id : Int32) (h : Hub) :
    (Rooms.release user id h).openRooms = h.openRooms := by
  unfold Rooms.release
  split <;> rfl

theorem Turn.drift {h h' : Hub} {s s' : Stage} (ht : Turn h s h' s') : Drift h h' := by
  cases ht with
  | stay s => exact drift_of_rooms rfl
  | giveUp _ => exact drift_of_rooms rfl
  | take user => exact drift_of_rooms rfl
  | reserve _ => exact drift_of_rooms rfl
  | enter _ _ => exact drift_enter h _
  | wait _ _ => exact drift_of_rooms rfl
  | join hr _ hid _ _ => exact drift_setRoom hr hid
  | refund user id => exact drift_of_rooms (release_rooms user id h)
  | placeless _ => exact drift_of_rooms rfl
  | vacate _ => exact drift_of_rooms rfl
  | lost _ => exact drift_of_rooms rfl
  | miss _ _ => exact drift_of_rooms rfl
  | leave hr _ hid _ _ _ => exact drift_setRoom hr hid
  | empty hr _ hid _ _ _ => exact drift_setRoom hr hid
  | close hr _ hid _ _ => exact drift_setRoom hr hid
  | drop id members => exact drift_of_rooms rfl
  | release id user members => exact drift_of_rooms (release_rooms user id h)

/-- what is found after a step was found before, or the step has entered it -/
theorem Turn.found {h h' : Hub} {s s' : Stage} (ht : Turn h s h' s') (hf : Found h) :
    Found h' := by
  have hold : ∀ {id ref}, h.openRooms.get? id = some ref → ref.id = id ∧ ∃ r, h'.Has ref r := by
    intro id ref hr
    obtain ⟨hid, r, hhas⟩ := hf hr
    exact ⟨hid, ht.drift hhas⟩
  intro id ref hr
  cases ht with
  | enter hopen hids =>
    rename_i user r
    rcases Hub.get?_openRooms_enter_cases hr with ⟨rfl, rfl⟩ | hr
    · exact ⟨rfl, r, List.getElem?_concat_length, rfl⟩
    · exact hold hr
  | drop id' members =>
    rw [Rooms.drop, Table.get?_erase] at hr
    split at hr
    · cases hr
    · exact hold hr
  | refund user id' =>
    rw [release_openRooms] at hr
    exact hold hr
  | release id' user members =>
    rw [release_openRooms] at hr
    exact hold hr
  | _ => exact hold hr

/-- calls take the steps of their stages, and may write and report whatever they like -/
def discipline : Discipline Stage where
  sound := Found
  drift := Drift
  turn := Turn
  emit _ s _ s' := s' = s
  rest := AtRest
  turn_refl _ s := .stay s
  drift_refl _ := drift_of_rooms rfl
  drift_trans h₁ h₂ := by
    intro ref r hr
    obtain ⟨r', hr'⟩ := h₁ hr
    exact h₂ hr'
  sound_turn hs ht := ht.found hs
  drift_turn _ ht := ht.drift

/-! ## Tasks -/

section Tasks

variable {α β : Type} {ref : RoomRef} {h : Hub} {s : Stage}

theorem keeps_calm {r : Routine α} (hr : r.Calm) (h : Hub) (s : Stage) :
    discipline.Keeps r (fun _ h' s' => Drift h h' ∧ s' = s) h s := by
  refine Discipline.keeps_within hr ?_ (fun _ _ _ _ => rfl) h
  intro h₁ h₂ _ heq
  subst heq
  exact .stay s

theorem keeps_calm_bind {r : Routine α} (hr : r.Calm) {f : α → Routine β}
    {Q : β → Hub → Stage → Prop}
    (hf : ∀ x h', Drift h h' → discipline.Keeps (f x) Q h' s) :
    discipline.Keeps (r.bind f) Q h s := by
  refine Discipline.keeps_bind (keeps_calm hr h s) fun x h' s' hd => ?_
  obtain ⟨hd, rfl⟩ := hd
  exact hf x h' hd

theorem keeps_end {r : Routine α} (hr : r.Calm) (hrest : s.AtRest) (h : Hub) :
    discipline.Keeps r (fun _ _ s => s.AtRest) h s := by
  refine Discipline.keeps_mono (keeps_calm hr h s) fun x h' s' hd => ?_
  obtain ⟨-, rfl⟩ := hd
  exact hrest

theorem keeps_roomChange {op : Room → Except RoomError (β × Room)}
    {Q : Except RoomError β → Hub → Stage → Prop} {r₀ : Room} (hhas : h.Has ref r₀)
    (hr : ∀ h₁ r, h₁.Has ref r →
      match op r with
      | .error e => ∃ s', Turn h₁ s h₁ s' ∧ Q (.error e) h₁ s'
      | .ok (x, r') => ∃ s', Turn h₁ s (h₁.setRoom ref r') s' ∧ Q (.ok x) (h₁.setRoom ref r') s') :
    discipline.Keeps (ref.change op) Q h s := by
  refine Discipline.keeps_transact fun h₁ hd _ => ?_
  obtain ⟨r, hnow⟩ := hd hhas
  have hround := hr h₁ r hnow
  rw [hnow.room]
  cases hop : op r with
  | error e =>
    rw [hop] at hround
    exact hround
  | ok p =>
    rw [hop] at hround
    exact hround

theorem keeps_find {Q : Option RoomRef → Hub → Stage → Prop} (room : Int32)
    (hnone : ∀ h₁, h₁.openRooms.get? room = none → ∃ s', Turn h₁ s h₁ s' ∧ Q none h₁ s')
    (hsome : ∀ h₁ ref r, ref.id = room → h₁.Has ref r → Q (some ref) h₁ s) :
    discipline.Keeps (Rooms.find room) Q h s := by
  refine Discipline.keeps_read fun h₁ _ hfound => ?_
  cases hr : h₁.openRooms.get? room with
  | none => exact hnone h₁ hr
  | some ref =>
    obtain ⟨hid, r, hhas⟩ := hfound hr
    exact ⟨s, .stay s, hsome h₁ ref r hid hhas⟩

/-- a room has been looked for: the task goes on in the stage `s'`, or gives up without the room -/
def Sought (room : Int32) (s' : Stage) (found : Option RoomRef) (h : Hub) (s : Stage) : Prop :=
  match found with
  | none => s = .idle
  | some ref => s = s' ∧ ref.id = room ∧ ∃ r, h.Has ref r

theorem keeps_seek {room : Int32}
    (hlost : ∀ h₁, h₁.openRooms.get? room = none → Turn h₁ s h₁ .idle) :
    discipline.Keeps (Rooms.find room) (Sought room s) h s :=
  keeps_find room (fun h₁ hnone => ⟨.idle, hlost h₁ hnone, rfl⟩) fun _ _ r hid hhas =>
    ⟨rfl, hid, r, hhas⟩

theorem keeps_reserve {Q : Bool → Hub → Stage → Prop} {user room : Int32} (hfree : s.Free)
    (hrefused : ∀ h₁, Q false h₁ .idle)
    (hgiven : ∀ h₁, Drift h h₁ → h₁.memberships.get? user = none → ∃ s',
      Turn h₁ s { h₁ with memberships := h₁.memberships.insert user room } s' ∧
      ∀ h₂, Drift h₁ h₂ → Q true h₂ s') :
    discipline.Keeps (Routine.transact (Rooms.reserve user room)) Q h s := by
  refine Discipline.keeps_transact fun h₁ hd _ => ?_
  cases hm : h₁.memberships.get? user with
  | none =>
    have hact : Rooms.reserve user room h₁ =
        (true, { h₁ with memberships := h₁.memberships.insert user room }) := by
      simp [Rooms.reserve, Table.contains, hm]
    obtain ⟨s', ht, hq⟩ := hgiven h₁ hd hm
    rw [hact]
    exact ⟨s', ht, hq _ (drift_of_rooms rfl)⟩
  | some id =>
    have hact : Rooms.reserve user room h₁ = (false, h₁) := by
      simp [Rooms.reserve, Table.contains, hm]
    rw [hact]
    exact ⟨.idle, .giveUp hfree, hrefused h₁⟩

end Tasks

end Stage

open Routine Stage

/-! ## Members come and go -/

namespace RoomRef

variable {ref : RoomRef} {h : Hub} {r : Room}

/-- where a user is who was to join -/
def Joined (user id : Int32) {α : Type} (joined : Except RoomError α) (s : Stage) : Prop :=
  Room.Answered (s = .waiting user id) (fun _ => s = .idle) joined

/-- the room takes the user in, or refuses and its place is to be given back -/
theorem keeps_join (hhas : h.Has ref r) (profile : PlayerProfile) (guess : Option String) :
    discipline.Keeps (ref.join profile guess)
      (fun joined _ s => Joined profile.userId ref.id joined s) h
      (.waiting profile.userId ref.id) := by
  refine Discipline.keeps_bind (Q := fun joined _ s => Joined profile.userId ref.id joined s)
    (Discipline.keeps_bind (Q := fun changed _ s => Joined profile.userId ref.id changed s)
      ?_ ?_) ?_
  · refine keeps_roomChange hhas fun h₁ r hnow => ?_
    split
    · exact ⟨_, .stay _, rfl⟩
    · rename_i record r' hop
      obtain ⟨hopen, -, -, -, -, rfl⟩ := Room.join_inv hop
      refine ⟨.idle, .join hnow hopen rfl hopen ?_, rfl⟩
      simp [Room.ids, Member.newcomer, Member.id]
  · intro changed h₁ s hs
    cases changed with
    | error e => exact hs
    | ok record => exact keeps_calm_bind (ref.calm_writePlayer record) fun _ _ _ => hs
  · intro joined h₁ s hs
    cases joined with
    | error e => exact hs
    | ok record => exact hs

/-- what is left to do for a user that has left -/
def Departed (id : Int32) (outcome : LeaveOutcome) (s : Stage) : Prop :=
  if outcome = .emptied then s = .closing id [] else s = .idle

/-- the room lets the user go; the last one to leave closes it -/
theorem keeps_leave (hhas : h.Has ref r) (user : Int32) :
    discipline.Keeps (ref.leave user) (fun outcome _ s => Departed ref.id outcome s) h
      (.leaving user ref.id) := by
  refine Discipline.keeps_bind (Q := fun left _ s => Departed ref.id left.1 s) ?_ ?_
  · refine Discipline.keeps_transact fun h₁ hd _ => ?_
    obtain ⟨r, hnow⟩ := hd hhas
    rw [hnow.room]
    by_cases hr : r.closed = true ∨ user ∉ r.ids
    · rw [Room.leave_of_notMem hr]
      refine ⟨.idle, ?_, rfl⟩
      have hsame : h₁.setRoom ref r = h₁ := by rw [← hnow.room, Hub.setRoom_room]
      show Stage.Turn h₁ _ (h₁.setRoom ref r) _
      rw [hsame]
      exact .miss hnow hr
    rw [not_or, Classical.not_not] at hr
    have hopen := Bool.eq_false_iff.mpr hr.1
    have hfilter := Room.ids_without r user
    rcases Room.leave_of_mem hopen hr.2 with ⟨hids, hl⟩ | ⟨hids, hl | ⟨host, hl⟩⟩
    · rw [hl]
      exact ⟨.closing ref.id [], .empty hnow hopen rfl rfl (hfilter ▸ hids) hids, rfl⟩
    · rw [hl]
      exact ⟨.idle, .leave hnow hopen rfl hopen hfilter hids, rfl⟩
    · rw [hl]
      exact ⟨.idle, .leave hnow hopen rfl hopen hfilter hids, rfl⟩
  · intro left h₁ s hs
    obtain ⟨outcome, l⟩ := left
    cases outcome with
    | notMember => exact hs
    | emptied => exact keeps_calm_bind (calm_update _) fun _ _ _ => hs
    | left =>
      exact keeps_calm_bind (calm_update _) fun _ _ _ =>
        keeps_calm_bind (calm_settling _ _) fun _ _ _ => hs
    | hostPassed host =>
      exact keeps_calm_bind (calm_update _) fun _ _ _ =>
        keeps_calm_bind (calm_settling _ _) fun _ _ _ =>
          keeps_calm_bind (ref.calm_writeListing l) fun _ _ _ => hs

/-- the room is closed, unless it refuses -/
theorem keeps_close (hhas : h.Has ref r) (caller : Option Int32) :
    discipline.Keeps (ref.close caller)
      (fun closed _ s => Room.Answered (s = .idle) (fun members => s = .closing ref.id members)
        closed) h .idle := by
  refine Discipline.keeps_bind (Q := fun closed _ s => Room.Answered (s = .idle)
    (fun members => s = .closing ref.id members) closed) ?_ ?_
  · refine keeps_roomChange hhas fun h₁ r hnow => ?_
    split
    · exact ⟨_, .stay _, rfl⟩
    · rename_i members r' hop
      obtain ⟨hopen, rfl, rfl⟩ := Room.close_ok hop
      exact ⟨_, .close hnow hopen rfl rfl rfl, rfl⟩
  · intro closed h₁ s hs
    cases closed with
    | error e => exact hs
    | ok members => exact keeps_calm_bind (calm_update _) fun _ _ _ => hs

end RoomRef

/-! ## All calls -/

namespace RoomCall

/-- the user on whose behalf a call is made; a room may be closed in the midst of any other call -/
def user? : RoomCall → Option Int32
  | create _ host => some host.userId
  | join _ profile _ => some profile.userId
  | leave user => some user
  | remove _ _ => none

def isCreate : RoomCall → Bool
  | create _ _ => true
  | _ => false

def task : RoomCall → Routine Unit
  | create request host => (Rooms.create request host).void
  | join room profile guess => (Rooms.join room profile guess).void
  | leave user => (Rooms.leave user).void
  | remove room caller => (Rooms.remove room caller).void

/-- the stage in which a call arrives; a room with invalid settings is not made at all -/
def stage : RoomCall → Stage
  | create request host =>
    match checkSettings request.name request.maxPlayers 1 with
    | .ok () => .starting host.userId
    | .error _ => .idle
  | join _ profile _ => .busy profile.userId
  | leave user => .busy user
  | remove _ _ => .idle

theorem keeps_create (request : RoomRequest) (host : PlayerProfile) (h : Hub) :
    discipline.Keeps (Rooms.create request host) (fun _ _ s => s.AtRest) h
      (create request host).stage := by
  unfold Rooms.create
  cases hvalid : checkSettings request.name request.maxPlayers 1 with
  | error e =>
    show Stage.AtRest _
    rw [stage, hvalid]
    exact trivial
  | ok _ =>
    have hstage : (create request host).stage = .starting host.userId := by rw [stage, hvalid]
    rw [hstage]
    refine Discipline.keeps_bind (Q := fun id _ s => s = .named host.userId id) ?_ ?_
    · exact Discipline.keeps_transact fun h₁ _ _ => ⟨_, .take _, rfl⟩
    intro id h₁ s hs
    subst hs
    refine Discipline.keeps_bind (Q := fun ok _ s =>
      if ok then s = .opening host.userId id else s = .idle) ?_ ?_
    · refine keeps_reserve trivial (fun _ => rfl) fun h₂ _ hnone => ?_
      exact ⟨_, .reserve hnone, fun _ _ => rfl⟩
    intro ok h₂ s hs
    cases ok with
    | false =>
      cases hs
      exact trivial
    | true =>
      cases hs
      refine Discipline.keeps_bind (Q := fun _ _ s => s = .idle) ?_ ?_
      · refine Discipline.keeps_transact fun h₃ _ _ => ⟨.idle, ?_, rfl⟩
        let settings := RoomSettings.fresh request.name request.maxPlayers request.map host.userId
        exact .enter (r := Room.create id settings request.password host) rfl rfl
      · intro ref h₃ s hs
        subst hs
        exact keeps_end (s := .idle)
          (Rooms.calm_gauge.bind fun _ => ref.calm_publish.bind fun _ => calm_done _) trivial h₃

theorem keeps_join (room : Int32) (profile : PlayerProfile) (guess : Option String) (h : Hub) :
    discipline.Keeps (Rooms.join room profile guess) (fun _ _ s => s.AtRest) h
      (.busy profile.userId) := by
  refine Discipline.keeps_bind (keeps_seek fun _ _ => .giveUp trivial) ?_
  intro found h₁ s hs
  cases found with
  | none =>
    subst hs
    exact trivial
  | some ref =>
    obtain ⟨rfl, rfl, r, hhas⟩ := hs
    refine Discipline.keeps_bind (Q := fun ok h s =>
      if ok then s = .waiting profile.userId ref.id ∧ ∃ r, h.Has ref r else s = .idle) ?_ ?_
    · refine keeps_reserve trivial (fun _ => rfl) fun h₂ hd hnone => ?_
      obtain ⟨r₂, hhas₂⟩ := hd hhas
      exact ⟨_, .wait hhas₂ hnone, fun h₃ hd => ⟨rfl, hd hhas₂⟩⟩
    intro ok h₂ s hs
    cases ok with
    | false =>
      cases hs
      exact trivial
    | true =>
      obtain ⟨rfl, r₂, hhas₂⟩ := hs
      refine Discipline.keeps_bind (ref.keeps_join hhas₂ profile guess) fun joined h₃ s hs => ?_
      cases joined with
      | ok _ =>
        cases hs
        exact trivial
      | error e =>
        cases hs
        refine Discipline.keeps_bind (Q := fun _ _ s => s = .idle) ?_ ?_
        · exact Discipline.keeps_transact fun h₄ _ _ => ⟨.idle, .refund _ _, rfl⟩
        · intro _ _ s hs
          subst hs
          exact trivial

/-- a user has given up its place, and will leave the room that it led to -/
def Vacated (user : Int32) (place : Option Int32) (s : Stage) : Prop :=
  match place with
  | none => s = .idle
  | some room => s = .leaving user room

theorem keeps_leave (user : Int32) (h : Hub) :
    discipline.Keeps (Rooms.leave user) (fun _ _ s => s.AtRest) h (.busy user) := by
  refine Discipline.keeps_bind (Q := fun place _ s => Vacated user place s) ?_ ?_
  · refine Discipline.keeps_transact fun h₁ _ _ => ?_
    show ∃ s', Stage.Turn h₁ _ (Rooms.vacate user h₁).2 s' ∧
      Vacated user (h₁.memberships.get? user) s'
    cases hm : h₁.memberships.get? user with
    | none => exact ⟨.idle, .placeless hm, rfl⟩
    | some room => exact ⟨.leaving user room, .vacate hm, rfl⟩
  intro place h₁ s hs
  cases place with
  | none =>
    subst hs
    exact trivial
  | some room =>
    subst hs
    refine Discipline.keeps_bind (keeps_seek fun _ hnone => .lost hnone) ?_
    intro found h₂ s hs
    cases found with
    | none =>
      subst hs
      exact trivial
    | some ref =>
      obtain ⟨rfl, rfl, r, hhas⟩ := hs
      refine Discipline.keeps_bind (ref.keeps_leave hhas user) fun outcome h₃ s hs => ?_
      dsimp only
      split
      · rename_i ho
        subst ho
        cases hs
        refine Discipline.keeps_bind (Q := fun _ _ s => s = .releasing ref.id []) ?_ ?_
        · exact Discipline.keeps_transact fun h₄ _ _ => ⟨_, .drop _ _, rfl⟩
        · intro _ h₄ s hs
          subst hs
          exact keeps_end (s := .releasing ref.id [])
            (Rooms.calm_gauge.bind fun _ => calm_done _) rfl h₄
      · rename_i ho
        rw [RoomRef.Departed, if_neg ho] at hs
        subst hs
        exact trivial

/-- the members of a closed room give their places back, one after another -/
theorem keeps_releases (id : Int32) (members : List Int32) (h : Hub) :
    discipline.Keeps (Routine.each (fun user => Routine.change (Rooms.release user id)) members)
      (fun _ _ s => s = .releasing id []) h (.releasing id members) := by
  induction members generalizing h with
  | nil => exact rfl
  | cons user members ih =>
    refine Discipline.keeps_bind (Q := fun _ _ s => s = .releasing id members) ?_ ?_
    · exact Discipline.keeps_transact fun h₁ _ _ => ⟨_, .release _ _ _, rfl⟩
    · intro _ h₁ s hs
      subst hs
      exact ih h₁

theorem keeps_remove (room : Int32) (caller : Option Int32) (h : Hub) :
    discipline.Keeps (Rooms.remove room caller) (fun _ _ s => s.AtRest) h .idle := by
  refine Discipline.keeps_bind (keeps_find room (Q := fun found h s =>
    s = .idle ∧ ∀ ref, found = some ref → ref.id = room ∧ ∃ r, h.Has ref r)
    (fun _ _ => ⟨.idle, .stay _, rfl, fun _ hr => by cases hr⟩) ?_) ?_
  · intro h₁ ref r hid hhas
    refine ⟨rfl, fun ref' hr => ?_⟩
    cases hr
    exact ⟨hid, r, hhas⟩
  intro found h₁ s hs
  obtain ⟨rfl, hfound⟩ := hs
  cases found with
  | none => exact trivial
  | some ref =>
    obtain ⟨rfl, r, hhas⟩ := hfound ref rfl
    refine Discipline.keeps_bind (ref.keeps_close hhas caller) fun closed h₂ s hs => ?_
    cases closed with
    | error e =>
      cases hs
      exact trivial
    | ok members =>
      cases hs
      refine Discipline.keeps_bind (Q := fun _ _ s => s = .releasing ref.id members) ?_ ?_
      · exact Discipline.keeps_transact fun h₃ _ _ => ⟨_, .drop _ _, rfl⟩
      intro _ h₃ s hs
      subst hs
      refine Discipline.keeps_bind (keeps_releases ref.id members h₃) fun _ h₄ s hs => ?_
      subst hs
      exact keeps_end (s := .releasing ref.id [])
        (Rooms.calm_gauge.bind fun _ => calm_done _) rfl h₄

theorem keeps (i : RoomCall) (h : Hub) :
    discipline.Keeps i.task (fun _ _ s => s.AtRest) h i.stage := by
  cases i with
  | create request host => exact Discipline.keeps_void (keeps_create request host h)
  | join room profile guess => exact Discipline.keeps_void (keeps_join room profile guess h)
  | leave user => exact Discipline.keeps_void (keeps_leave user h)
  | remove room caller => exact Discipline.keeps_void (keeps_remove room caller h)

end RoomCall
end RhythmLobby
