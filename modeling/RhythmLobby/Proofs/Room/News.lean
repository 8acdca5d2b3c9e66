import RhythmLobby.Proofs.Room.Endings
import RhythmLobby.Proofs.Room.View

/-!
# Members hear of all that changes in their rooms

Whatever is done with rooms, those who are in one and have known it know it again afterwards.

* `RoomNews.notify_does`, `RoomNews.leaveCurrent_does`        who is told of what;
* `RoomRef.Edits`                  a change of a room under which nobody comes or goes;
* `RoomNews.keeps_leaveCurrent`    members leave;
* `Rooms.keeps_remove`             a room is closed;
* `Session.keeps_joinRoom`, `Session.keeps_createRoom`        members come;
* `Session.keeps_changeRoom`, `Session.keeps_finishMatch`     the room changes.
-/

namespace RhythmLobby
open Routine

/-! ## Who is told -/

namespace RoomNews

variable {w w' : World} {es : List Effect}

theorem notify_does {users : List Int32} {p : ServerPacket} {x : Nat}
    (h : (notify users p).Does w x w' es) :
    w'.hub = w.hub ∧ es = [.fanOut p (w.hub.sessionsOf users)] := by
  replace h := does_read_bind h
  obtain ⟨-, rfl, rfl⟩ := does_emit h
  exact ⟨Effect.perform_hub _ _, rfl⟩

theorem sendUpdate_does {ref : RoomRef} {x : Unit} (h : (sendUpdate ref).Does w x w' es) :
    w'.hub = w.hub ∧ es = [.fanOut (.roomUpdate (w.hub.room ref).snapshot)
      (w.hub.sessionsOf (w.hub.room ref).ids)] := by
  obtain ⟨_, -, hnotify⟩ := does_answer (does_read_bind (does_read_bind h))
  exact notify_does hnotify

/-- who is told of one who has left -/
def farewell (user : Int32) (h : Hub) : Option (RoomRef × LeaveOutcome) → List Effect
  | some (ref, .left) => [.fanOut (.roomPlayerLeft ref.id user) (h.sessionsOf (h.room ref).ids)]
  | some (ref, .hostPassed _) =>
    [.fanOut (.roomPlayerLeft ref.id user) (h.sessionsOf (h.room ref).ids),
      .fanOut (.roomUpdate (h.room ref).snapshot) (h.sessionsOf (h.room ref).ids)]
  | _ => []

theorem leaveCurrent_does {user : Int32} {x : Bool} (h : (leaveCurrent user).Does w x w' es) :
    ∃ left w₁ es₁, (Rooms.leave user).Does w left w₁ es₁ ∧ w'.hub = w₁.hub ∧
      es = es₁ ++ farewell user w₁.hub left := by
  obtain ⟨es₁, es₂, rfl, left, w₁, h₁, h₂⟩ := does_bind h
  refine ⟨left, w₁, es₁, h₁, ?_⟩
  match left with
  | none | some (_, .notMember) | some (_, .emptied) =>
    obtain ⟨-, rfl, rfl⟩ := does_done h₂
    exact ⟨rfl, rfl⟩
  | some (ref, .left) =>
    obtain ⟨_, -, h₃⟩ := does_answer (does_read_bind h₂)
    obtain ⟨hsame, rfl⟩ := notify_does h₃
    exact ⟨hsame, rfl⟩
  | some (ref, .hostPassed host) =>
    obtain ⟨es₃, es₄, rfl, _, w₂, h₃, h₄⟩ := does_bind (does_read_bind h₂)
    obtain ⟨hsame, rfl⟩ := notify_does h₃
    obtain ⟨_, -, h₅⟩ := does_answer h₄
    obtain ⟨hsame', rfl⟩ := sendUpdate_does h₅
    rw [hsame] at hsame' ⊢
    exact ⟨hsame', rfl⟩

end RoomNews

namespace Hub

variable {h h' h₁ : Hub} {ref : RoomRef} {es : List Effect} {s : Session}

theorem Touched.sameRooms (ht : h.Touched ref h₁) (hs : h₁.SameRooms h')
    (hd : h'.directory = h₁.directory) : h.Touched ref h' where
  directory := hd.trans ht.directory
  others hr hne := by
    rw [hs.room]
    exact ht.others (hs.openRooms ▸ hr) hne

theorem Touched.drop (ht : h.Touched ref h') (room : Int32) :
    h.Touched ref (Rooms.drop room h') where
  directory := ht.directory
  others {id ref'} hr hne := by
    have hr : (h'.openRooms.erase room).get? id = some ref' := hr
    rw [Table.get?_erase] at hr
    split at hr
    · cases hr
    · exact ht.others hr hne

theorem WellFormed.touched_enter (ht : h.WellFormed) (h₁ : Hub) (hd : h₁.directory = h.directory)
    (ho : h₁.openRooms = h.openRooms) (hrooms : h₁.rooms = h.rooms) (r : Room) :
    h.Touched (Rooms.enter r h₁).1 (Rooms.enter r h₁).2 where
  directory := hd
  others {id ref'} hr hne := by
    obtain ⟨n, hn⟩ := ht.numbered
    rcases get?_openRooms_enter_cases hr with ⟨-, rfl⟩ | hr
    · exact absurd rfl hne
    · rw [ho] at hr
      refine ⟨hr, ?_⟩
      rw [room_enter_old (hrooms ▸ hn.made hr), room, room, hrooms]

theorem Finds.eq_of_id {s' : Session} (hs : h.Finds s) (hs' : h.Finds s') (hid : s.id = s'.id) :
    s = s' := by
  rw [Finds, hid, hs'] at hs
  exact (Option.some.inj hs).symm

/-- something for the line of one session, as another one hears it -/
theorem WellFormed.at_line (ht : h.WellFormed) {s' : Session} (hs : h.Finds s) (hs' : h.Finds s')
    (event : LineEvent) : event.at s.line s'.line = if s' = s then [event] else [] :=
  LineEvent.at_line (ht.apart hs hs') event

/-- something for one who comes, and something for some others -/
theorem WellFormed.heard_welcome (ht : h.WellFormed) (hd : h₁.directory = h.directory)
    {s' : Session}
    (hs : h.Finds s) (hs' : h.Finds s') {users : List Int32} (hnodup : users.Nodup)
    (hout : s.id ∉ users) (p q : ServerPacket) :
    heardAt s'.line [.deliver p s, .fanOut q (h₁.sessionsOf users)] =
      if s' = s then [.frame p] else if s'.id ∈ users then [.frame q] else [] := by
  rw [heardAt_cons, ht.heard_users hd hs' hnodup, Effect.at, ht.at_line hs hs']
  by_cases heq : s' = s
  · rw [if_pos heq, if_pos heq, heq, if_neg hout]
    rfl
  · rw [if_neg heq, if_neg heq, List.nil_append]

/-- Nobody comes, and those who are in the room now are told what brings them up to date. -/
theorem Touched.keeps_members (htouched : h.Touched ref h') (ht : h.WellFormed)
    (hr : h.openRooms.get? ref.id = some ref) (hlisted : h'.openRooms = h.openRooms)
    (hfewer : ∀ v ∈ (h'.room ref).ids, v ∈ (h.room ref).ids)
    (events : List LineEvent) (hheard : ∀ s, h.Finds s →
      heardAt s.line es = if s.id ∈ (h'.room ref).ids then events else [])
    (hbrings : RoomView.Brings events (h.room ref).snapshot (h'.room ref).snapshot) (s : Session) :
    RoomView.replica.Keeps s h es h' := by
  refine htouched.keeps (fun s id ref' hs hr' hne hmem => ?_) (fun s id hs hr' hmem => .inr ?_) s
  · rw [hheard s hs, if_neg fun hc => ht.elsewhere hr hr' hmem hne (hfewer _ hc)]
  · rw [hheard s hs, if_pos hmem]
    exact ⟨hlisted ▸ hr', hfewer _ hmem, hbrings⟩

/-- the room can be found no more, and nobody hears of that but its members -/
theorem Touched.keeps_gone (htouched : h.Touched ref h') (ht : h.WellFormed)
    (hr : h.openRooms.get? ref.id = some ref) (hgone : ∀ id, h'.openRooms.get? id ≠ some ref)
    (hheard : ∀ s, h.Finds s → s.id ∉ (h.room ref).ids → heardAt s.line es = []) (s : Session) :
    RoomView.replica.Keeps s h es h' := by
  refine htouched.keeps (fun s id ref' hs hr' hne hmem => ?_) (fun s id hs hr' hmem => ?_) s
  · exact hheard s hs (ht.elsewhere hr hr' hmem hne)
  · exact absurd hr' (hgone id)

theorem WellFormed.not_listed_drop (ht : h.WellFormed) {room : Int32}
    (hr : h.openRooms.get? room = some ref)
    (ho : h₁.openRooms = h.openRooms) (id : Int32) :
    (Rooms.drop room h₁).openRooms.get? id ≠ some ref := by
  intro hr'
  have hr' : (h₁.openRooms.erase room).get? id = some ref := hr'
  rw [Table.get?_erase, ho] at hr'
  split at hr'
  · cases hr'
  · exact absurd ((ht.named hr).symm.trans (ht.named hr')) ‹_›

theorem keeps_of_unheard (hsame : h' = h) (hheard : heardAt s.line es = []) :
    RoomView.replica.Keeps s h es h' := by
  subst hsame
  intro view hview
  rwa [hheard]

/-- an update for all members brings everybody up to date -/
theorem Touched.keeps_update (htouched : h.Touched ref h') (ht : h.WellFormed)
    (hr : h.openRooms.get? ref.id = some ref) (hlisted : h'.openRooms = h.openRooms)
    (hids : (h'.room ref).ids = (h.room ref).ids) (s : Session) :
    RoomView.replica.Keeps s h [.fanOut (.roomUpdate (h'.room ref).snapshot)
      (h'.sessionsOf (h'.room ref).ids)] h' := by
  have hbrings := (RoomView.reveals_update [] (h'.room ref).snapshot).brings (h.room ref).snapshot
  refine htouched.keeps_members ht hr hlisted (fun v hv => hids ▸ hv) _ (fun s hs => ?_) hbrings s
  exact ht.heard_users htouched.directory hs (hids ▸ ht.members hr) _

/-- those who stay hear who has left, and are shown the room if its host has left -/
theorem Touched.keeps_farewell (htouched : h.Touched ref h') (ht : h.WellFormed)
    (hr : h.openRooms.get? ref.id = some ref) (hlisted : h'.openRooms = h.openRooms)
    {user : Int32} {outcome : LeaveOutcome}
    (hleft : (outcome = .left ∧ h'.room ref = (h.room ref).without user) ∨ ∃ host,
      outcome = .hostPassed host ∧ h'.room ref = ((h.room ref).without user).hostedBy host)
    (s : Session) :
    RoomView.replica.Keeps s h (RoomNews.farewell user h' (some (ref, outcome))) h' := by
  have hids : (h'.room ref).ids = (h.room ref).ids.filter (· ≠ user) := by
    rcases hleft with ⟨-, hroom⟩ | ⟨host, -, hroom⟩
    · rw [hroom]
      exact Room.ids_without _ user
    · rw [hroom]
      exact Room.ids_without _ user
  have hfewer : ∀ v ∈ (h'.room ref).ids, v ∈ (h.room ref).ids := fun v hv =>
    (List.mem_filter.mp (hids ▸ hv)).1
  have hheard := fun p s (hs : h.Finds s) =>
    ht.heard_users htouched.directory hs (hids ▸ (ht.members hr).filter _) p
  rcases hleft with ⟨rfl, hroom⟩ | ⟨host, rfl, hroom⟩
  · refine htouched.keeps_members ht hr hlisted hfewer [.frame (.roomPlayerLeft ref.id user)]
      (fun s hs => hheard _ s hs) (fun v hv => ?_) s
    rw [hroom]
    exact ⟨v.left user, rfl, hv.left user⟩
  · have hbrings := (RoomView.reveals_update [.frame (.roomPlayerLeft ref.id user)]
      (h'.room ref).snapshot).brings (h.room ref).snapshot
    refine htouched.keeps_members ht hr hlisted hfewer _ (fun s hs => ?_) hbrings s
    rw [RoomNews.farewell, heardAt_cons, ← heardAt_singleton, hheard _ s hs, hheard _ s hs]
    split <;> rfl

end Hub

/-! ## Changes of a room -/

namespace RoomRef

variable {α β : Type} (ref : RoomRef)

/-- The task is refused and leaves memory as it is, or it changes the room, but not who is in it.
Nobody hears of it. -/
def Edits (r : Routine (Except RoomError α)) : Prop :=
  ∀ ⦃w x w' es⦄, r.Does w x w' es → (∀ n, heardAt n es = []) ∧
    ((∃ e, x = .error e ∧ w'.hub = w.hub) ∨ ∃ y r', x = .ok y ∧
      w'.hub = w.hub.setRoom ref r' ∧ r'.ids = (w.hub.room ref).ids)

variable {ref}

theorem edits_changePlayer {op : Room → Except RoomError (PlayerRecord × Room)}
    (hop : ∀ r x r', op r = .ok (x, r') → r'.ids = r.ids) (f : PlayerRecord → β) :
    ref.Edits ((ref.changePlayer op).bind fun x => .done (x.map f)) := by
  intro w x w' es h
  obtain ⟨y, rfl, hchange⟩ := does_answer h
  refine ⟨((ref.mute_changePlayer op).does hchange).2, ?_⟩
  rcases ref.changePlayer_ends hchange.ends with ⟨e, rfl, hhub⟩ | ⟨record, r', hok, rfl, hhub⟩
  · exact .inl ⟨e, rfl, hhub⟩
  · exact .inr ⟨_, r', rfl, hhub, hop _ _ _ hok⟩

theorem edits_changeListing {op : Room → Except RoomError Room}
    (hop : ∀ r r', op r = .ok r' → r'.ids = r.ids) : ref.Edits (ref.changeListing op) := by
  intro w x w' es h
  refine ⟨((ref.mute_changeListing op).does h).2, ?_⟩
  rcases ref.changeListing_ends h.ends with hsame | ⟨r', hok, rfl, hhub⟩
  · exact .inl hsame
  · exact .inr ⟨_, r', rfl, hhub, hop _ _ hok⟩

theorem edits_changeAll {op : Room → Except RoomError Room}
    (hop : ∀ r r', op r = .ok r' → r'.ids = r.ids) : ref.Edits (ref.changeAll op) := by
  intro w x w' es h
  refine ⟨((ref.mute_changeAll op).does h).2, ?_⟩
  rcases ref.changeAll_ends h.ends with hsame | ⟨r', hok, rfl, hhub⟩
  · exact .inl hsame
  · exact .inr ⟨_, r', rfl, hhub, hop _ _ hok⟩

end RoomRef

/-- a room that has been edited is shown to all its members -/
theorem RoomNews.keeps_sendUpdate {ref : RoomRef} {r' : Room} {w w₁ w' : World} {x : Unit}
    {es₁ es₂ : List Effect}
    (ht : w.hub.WellFormed) (hr : w.hub.openRooms.get? ref.id = some ref)
    (hids : r'.ids = (w.hub.room ref).ids) (hmute : ∀ n, heardAt n es₁ = [])
    (hhub : w₁.hub = w.hub.setRoom ref r') (h : (sendUpdate ref).Does w₁ x w' es₂) (s : Session) :
    RoomView.replica.Keeps s w.hub (es₁ ++ es₂) w'.hub := by
  obtain ⟨hsame, rfl⟩ := sendUpdate_does h
  have htouched : w.hub.Touched ref w₁.hub := hhub ▸ ht.touched_setRoom hr r'
  have hedited : (w₁.hub.room ref).ids = (w.hub.room ref).ids := by
    rw [hhub, ht.room_setRoom hr, hids]
  rw [hsame]
  refine (Replica.keeps_congr ?_).mpr (htouched.keeps_update ht hr (hhub ▸ rfl) hedited s)
  rw [heardAt_append, hmute, List.nil_append]

/-! ## Members leave -/

section Leave

variable {w w' : World} {es : List Effect}

theorem Routine.Mute.keeps {α : Type} {r : Routine α} {x : α} (hr : r.Mute)
    (h : r.Does w x w' es) (ho : w'.hub.openRooms = w.hub.openRooms)
    (hrooms : w'.hub.rooms = w.hub.rooms) (s : Session) :
    RoomView.replica.Keeps s w.hub es w'.hub := by
  obtain ⟨hdirectory, hquiet⟩ := hr.does h
  refine Hub.keeps_of_quiet (Hub.finds_congr hdirectory).mp ho hrooms fun event hevent => ?_
  rw [hquiet] at hevent
  cases hevent

theorem RoomNews.keeps_leaveCurrent {user : Int32} {x : Bool} (ht : w.hub.WellFormed)
    (h : (leaveCurrent user).Does w x w' es) (s : Session) :
    RoomView.replica.Keeps s w.hub es w'.hub := by
  obtain ⟨left, w₁, es₁, h₁, hsame, rfl⟩ := leaveCurrent_does h
  have hmute := Rooms.mute_leave user
  rw [hsame]
  rcases Rooms.leave_ends h₁.ends with
    ⟨rfl, hhub, -⟩ | ⟨room, ref, outcome, r', -, hr, hl, rfl, hhub⟩
  · rw [show farewell user w₁.hub none = [] from rfl, List.append_nil]
    exact hmute.keeps h₁ (hhub ▸ rfl) (hhub ▸ rfl) s
  have hlisted : w.hub.openRooms.get? ref.id = some ref := ht.named hr ▸ hr
  have htouched : w.hub.Touched ref ((Rooms.vacate user w.hub).2.setRoom ref r') :=
    (ht.touched_setRoom hlisted r').sameRooms ⟨rfl, rfl, rfl⟩ rfl
  have hcases := Room.leave_cases (w.hub.room ref) user
  rw [hl] at hcases
  rcases hcases with hc | ⟨-, -, ⟨-, hc⟩ | ⟨-, hc⟩⟩
  · -- it was no member
    cases hc
    rw [show farewell user w₁.hub (some (ref, .notMember)) = [] from rfl, List.append_nil]
    replace hhub : w₁.hub = (Rooms.vacate user w.hub).2 :=
      hhub.trans ((Rooms.vacate user w.hub).2.setRoom_room ref)
    exact hmute.keeps h₁ (hhub ▸ rfl) (hhub ▸ rfl) s
  · -- it was the last one, and the room can be found no more
    cases hc
    rw [show farewell user w₁.hub (some (ref, .emptied)) = [] from rfl, List.append_nil, hhub,
      if_pos rfl]
    exact (htouched.drop room).keeps_gone ht hlisted (ht.not_listed_drop hr rfl)
      (fun s _ _ => (hmute.does h₁).2 s.line) s
  · -- the others stay
    have hstay : outcome ≠ .emptied := by
      rcases hc with hc | ⟨host, hc⟩
      · cases hc
        nofun
      · cases hc
        nofun
    rw [if_neg hstay] at hhub
    have hroom : w₁.hub.room ref = r' := by
      rw [hhub]
      exact ht.room_setRoom hlisted r'
    rw [← hhub] at htouched
    have hleft : (outcome = .left ∧ w₁.hub.room ref = (w.hub.room ref).without user) ∨ ∃ host,
        outcome = .hostPassed host ∧
          w₁.hub.room ref = ((w.hub.room ref).without user).hostedBy host := by
      rw [hroom]
      rcases hc with hc | ⟨host, hc⟩
      · exact .inl (Prod.mk.inj hc)
      · exact .inr ⟨host, Prod.mk.inj hc⟩
    refine (Replica.keeps_congr ?_).mpr (htouched.keeps_farewell ht hlisted (hhub ▸ rfl) hleft s)
    rw [heardAt_append, (hmute.does h₁).2, List.nil_append]

theorem Rooms.keeps_remove {room : Int32} {caller : Option Int32}
    {x : Except RoomError (List Int32)} (ht : w.hub.WellFormed)
    (h : (Rooms.remove room caller).Does w x w' es) (s : Session) :
    match x with
    | .error _ => RoomView.replica.Keeps s w.hub es w'.hub
    | .ok members => ∀ v y es', (RoomNews.notify members (.roomClosed room)).Does w' y v es' →
        RoomView.replica.Keeps s w.hub (es ++ es') v.hub := by
  have hmute := Rooms.mute_remove room caller
  rcases Rooms.remove_ends h.ends with
    ⟨e, rfl, hhub⟩ | ⟨ref, members, r', hr, hclose, rfl, hhub⟩
  · exact hmute.keeps h (hhub ▸ rfl) (hhub ▸ rfl) s
  · intro v y es' hnotify
    obtain ⟨hsame, rfl⟩ := RoomNews.notify_does hnotify
    obtain ⟨-, rfl, -⟩ := Room.close_ok hclose
    have hlisted : w.hub.openRooms.get? ref.id = some ref := ht.named hr ▸ hr
    obtain ⟨hreleased, hdirectory⟩ := Rooms.sameRooms_releaseAll (w.hub.room ref).ids room
      (Rooms.drop room (w.hub.setRoom ref r'))
    have htouched : w.hub.Touched ref w'.hub := by
      rw [hhub]
      exact ((ht.touched_setRoom hlisted r').drop room).sameRooms hreleased hdirectory
    rw [hsame]
    refine htouched.keeps_gone ht hlisted (fun id hr' => ?_) (fun s hs hout => ?_) s
    · rw [hhub, hreleased.openRooms] at hr'
      have hopen : (w.hub.setRoom ref r').openRooms = w.hub.openRooms := rfl
      exact ht.not_listed_drop hr hopen id hr'
    · rw [heardAt_append, (hmute.does h).2, List.nil_append,
        ht.heard_users htouched.directory hs (ht.members hlisted), if_neg hout]

theorem RoomNews.keeps_closeRoom {ref : RoomRef} {x : Unit} (ht : w.hub.WellFormed)
    (h : (closeRoom ref).Does w x w' es) (s : Session) :
    RoomView.replica.Keeps s w.hub es w'.hub := by
  obtain ⟨es₁, es₂, rfl, closed, w₁, h₁, h₂⟩ := does_bind h
  have hkeeps := Rooms.keeps_remove ht h₁ s
  cases closed with
  | error e =>
    obtain ⟨-, rfl, rfl⟩ := does_done h₂
    rw [List.append_nil]
    exact hkeeps
  | ok members =>
    obtain ⟨_, -, hnotify⟩ := does_answer h₂
    exact hkeeps _ _ _ hnotify

end Leave

/-! ## Packets -/

/-- apart from the one who has joined, there are those who were there before -/
theorem Room.others_joined {r : Room} (p : PlayerProfile) (hout : p.userId ∉ r.ids) :
    ({ r with members := r.members ++ [Member.newcomer p] } : Room).ids.filter (· ≠ p.userId) =
      r.ids := by
  have hids : ({ r with members := r.members ++ [Member.newcomer p] } : Room).ids =
      r.ids ++ [p.userId] := List.map_append
  have hothers : r.ids.filter (· ≠ p.userId) = r.ids :=
    List.filter_eq_self.mpr fun v hv => decide_eq_true fun heq => hout (heq ▸ hv)
  rw [hids, List.filter_append, hothers]
  simp

namespace Session

variable {s : Session} {w w' : World} {es : List Effect} {x : Except Refusal Unit}

theorem joinRoom_does {room : Int32} {guess : Option String}
    (h : (s.joinRoom room guess).Does w x w' es) :
    (∃ e, (Rooms.join room s.profile.toPlayer guess).Does w (.error e) w' es) ∨
    ∃ ref w₁ es₁, (Rooms.join room s.profile.toPlayer guess).Does w (.ok ref) w₁ es₁ ∧
      w'.hub = w₁.hub ∧ es = es₁ ++ [.deliver (.roomInfo (w₁.hub.room ref).snapshot) s,
        .fanOut (.roomPlayerJoined room s.id)
          (w₁.hub.sessionsOf ((w₁.hub.room ref).ids.filter (· ≠ s.id)))] := by
  obtain ⟨es₁, es₂, rfl, joined, w₁, h₁, h₂⟩ := does_bind h
  cases joined with
  | error e =>
    obtain ⟨-, rfl, rfl⟩ := does_done h₂
    rw [List.append_nil]
    exact .inl ⟨e, h₁⟩
  | ok ref =>
    obtain ⟨es₃, rfl, h₃⟩ := does_emit_bind (does_read_bind h₂)
    obtain ⟨_, -, h₄⟩ := does_answer (does_read_bind h₃)
    obtain ⟨hsame, rfl⟩ := RoomNews.notify_does h₄
    rw [Effect.perform_hub] at hsame ⊢
    exact .inr ⟨ref, w₁, es₁, h₁, hsame, rfl⟩

theorem createRoom_does {request : RoomRequest} (h : (s.createRoom request).Does w x w' es) :
    (w' = w ∧ es = []) ∨
    (∃ e, (Rooms.create request s.profile.toPlayer).Does w (.error e) w' es) ∨
    ∃ ref w₁ es₁, (Rooms.create request s.profile.toPlayer).Does w (.ok ref) w₁ es₁ ∧
      w'.hub = w₁.hub ∧ es = es₁ ++ [.deliver (.roomInfo (w₁.hub.room ref).snapshot) s] := by
  replace h := does_read_bind h
  split at h
  · obtain ⟨-, rfl, rfl⟩ := does_done h
    exact .inl ⟨rfl, rfl⟩
  obtain ⟨es₁, es₂, rfl, made, w₁, h₁, h₂⟩ := does_bind h
  cases made with
  | error e =>
    obtain ⟨-, rfl, rfl⟩ := does_done h₂
    rw [List.append_nil]
    exact .inr (.inl ⟨e, h₁⟩)
  | ok ref =>
    obtain ⟨_, -, h₃⟩ := does_answer (does_read_bind h₂)
    obtain ⟨-, rfl, rfl⟩ := does_emit h₃
    exact .inr (.inr ⟨ref, w₁, es₁, h₁, Effect.perform_hub _ _, rfl⟩)

theorem keeps_joinRoom {room : Int32} {guess : Option String} (ht : w.hub.WellFormed)
    (hs : w.hub.Finds s) (h : (s.joinRoom room guess).Does w x w' es) (s' : Session) :
    RoomView.replica.Keeps s' w.hub es w'.hub := by
  have hmute := Rooms.mute_join room s.profile.toPlayer guess
  rcases joinRoom_does h with ⟨e, h₁⟩ | ⟨ref, w₁, es₁, h₁, hsame, rfl⟩
  · rcases Rooms.join_ends h₁.ends with ⟨-, -, hhub | ⟨-, hhub⟩⟩ | ⟨_, _, _, -, -, -, hx, -⟩
    · exact hmute.keeps h₁ (hhub ▸ rfl) (hhub ▸ rfl) s'
    · have hreleased := Rooms.sameRooms_release s.id room (w.hub.note s.id room)
      exact hmute.keeps h₁ (hhub ▸ hreleased.openRooms) (hhub ▸ hreleased.rooms) s'
    · cases hx
  rcases Rooms.join_ends h₁.ends with ⟨_, hx, -⟩ | ⟨_, record, r', hr, hnew, hjoin, hx, hhub⟩
  · cases hx
  cases hx
  have hlisted : w.hub.openRooms.get? ref.id = some ref := ht.named hr ▸ hr
  have htouched : w.hub.Touched ref w₁.hub := by
    rw [hhub]
    exact (ht.touched_setRoom hlisted r').sameRooms ⟨rfl, rfl, rfl⟩ rfl
  have hroom : w₁.hub.room ref = r' := by
    rw [hhub]
    exact ht.room_setRoom hlisted r'
  obtain ⟨-, hout, -, -, -, rfl⟩ := Room.join_inv hjoin
  replace hout : s.id ∉ (w.hub.room ref).ids := hout
  have hothers : (w₁.hub.room ref).ids.filter (· ≠ s.id) = (w.hub.room ref).ids := by
    rw [hroom]
    exact Room.others_joined s.profile.toPlayer hout
  rw [hsame, hothers]
  have hheard : ∀ s', w.hub.Finds s' → heardAt s'.line (es₁ ++
      [.deliver (.roomInfo (w₁.hub.room ref).snapshot) s,
        .fanOut (.roomPlayerJoined room s.id) (w₁.hub.sessionsOf (w.hub.room ref).ids)]) =
      if s' = s then [.frame (.roomInfo (w₁.hub.room ref).snapshot)]
      else if s'.id ∈ (w.hub.room ref).ids then [.frame (.roomPlayerJoined room s.id)] else [] := by
    intro s' hs'
    rw [heardAt_append, (hmute.does h₁).2, List.nil_append]
    exact ht.heard_welcome htouched.directory hs hs' (ht.members hlisted) hout _ _
  refine htouched.keeps (fun s₁ id ref' hs₁ hr' hne hmem => ?_) (fun s₁ id hs₁ hr' hmem => ?_) s'
  · have hne' : s₁ ≠ s := fun heq => ht.ne_of_unnoted hnew hr' hmem (congrArg Session.id heq)
    rw [hheard s₁ hs₁, if_neg hne', if_neg (ht.elsewhere hlisted hr' hmem hne)]
  · rw [hheard s₁ hs₁]
    by_cases heq : s₁ = s
    · rw [if_pos heq]
      exact .inl (RoomView.reveals_info _)
    · have hmem₀ : s₁.id ∈ (w.hub.room ref).ids := by
        rw [← hothers, List.mem_filter]
        exact ⟨hmem, decide_eq_true fun hid => heq (hs₁.eq_of_id hs hid)⟩
      rw [if_neg heq, if_pos hmem₀, hroom]
      rw [hhub] at hr'
      exact .inr ⟨hr', hmem₀, fun v hv => ⟨v.joined s.id, rfl, hv.joined s.profile.toPlayer⟩⟩

theorem keeps_createRoom {request : RoomRequest} (ht : w.hub.WellFormed) (hs : w.hub.Finds s)
    (h : (s.createRoom request).Does w x w' es) (s' : Session) :
    RoomView.replica.Keeps s' w.hub es w'.hub := by
  have hmute := Rooms.mute_create request s.profile.toPlayer
  rcases createRoom_does h with ⟨rfl, rfl⟩ | ⟨e, h₁⟩ | ⟨ref, w₁, es₁, h₁, hsame, rfl⟩
  · exact RoomView.replica.keeps_nothing s' _
  · rcases Rooms.create_ends h₁.ends with ⟨-, -, hhub | hhub⟩ | ⟨_, -, -, -, hx, -⟩
    · exact hmute.keeps h₁ (hhub ▸ rfl) (hhub ▸ rfl) s'
    · exact hmute.keeps h₁ (hhub ▸ rfl) (hhub ▸ rfl) s'
    · cases hx
  rcases Rooms.create_ends h₁.ends with ⟨_, hx, -⟩ | ⟨r, hids, -, hnew, hx, hhub⟩
  · cases hx
  have href : ref = (Rooms.enter r ((Rooms.takeId w.hub).2.note s.id r.id)).1 := Except.ok.inj hx
  replace hhub : w₁.hub = (Rooms.enter r ((Rooms.takeId w.hub).2.note s.id r.id)).2 := hhub
  have htouched : w.hub.Touched ref w₁.hub := by
    rw [hhub, href]
    exact ht.touched_enter ((Rooms.takeId w.hub).2.note s.id r.id) rfl rfl rfl r
  have hroom : w₁.hub.room ref = r := by
    rw [hhub, href]
    exact Hub.room_enter_new _ r
  have hheard : ∀ s', w.hub.Finds s' →
      heardAt s'.line (es₁ ++ [.deliver (.roomInfo (w₁.hub.room ref).snapshot) s]) =
        if s' = s then [.frame (.roomInfo (w₁.hub.room ref).snapshot)] else [] := by
    intro s' hs'
    rw [heardAt_append, (hmute.does h₁).2, List.nil_append]
    exact (heardAt_singleton _ _).trans (ht.at_line hs hs' _)
  rw [hsame]
  refine htouched.keeps (fun s₁ id ref' hs₁ hr' _ hmem => ?_) (fun s₁ id hs₁ _ hmem => .inl ?_) s'
  · have hne : s₁ ≠ s := fun heq => ht.ne_of_unnoted hnew hr' hmem (congrArg Session.id heq)
    rw [hheard s₁ hs₁, if_neg hne]
  · rw [hroom, hids, List.mem_singleton] at hmem
    rw [hheard s₁ hs₁, if_pos (hs₁.eq_of_id hs hmem)]
    exact RoomView.reveals_info _

theorem inRoom_does {task : RoomRef → Routine (Except Refusal Unit)} (ht : w.hub.WellFormed)
    (h : (s.inRoom task).Does w x w' es) :
    (w' = w ∧ es = []) ∨ ∃ ref, w.hub.openRooms.get? ref.id = some ref ∧
      (task ref).Does w x w' es := by
  obtain ⟨es₁, es₂, rfl, found, w₁, h₁, h₂⟩ := does_bind h
  replace h₁ := does_read_bind h₁
  cases hplace : w.hub.memberships.get? s.id with
  | none =>
    rw [hplace] at h₁
    obtain ⟨rfl, rfl, rfl⟩ := does_done h₁
    obtain ⟨-, rfl, rfl⟩ := does_done h₂
    exact .inl ⟨rfl, rfl⟩
  | some room =>
    rw [hplace] at h₁
    obtain ⟨rfl, rfl, rfl⟩ := does_read h₁
    cases hr : w₁.hub.openRooms.get? room with
    | none =>
      rw [hr] at h₂
      obtain ⟨-, rfl, rfl⟩ := does_done h₂
      exact .inl ⟨rfl, rfl⟩
    | some ref =>
      rw [hr] at h₂
      exact .inr ⟨ref, ht.named hr ▸ hr, h₂⟩

theorem keeps_changeRoom {op : RoomRef → Routine (Except RoomError Unit)}
    (hop : ∀ ref : RoomRef, ref.Edits (op ref)) (ht : w.hub.WellFormed)
    (h : (s.changeRoom op).Does w x w' es)
    (s' : Session) : RoomView.replica.Keeps s' w.hub es w'.hub := by
  rcases inRoom_does ht h with ⟨rfl, rfl⟩ | ⟨ref, hr, h⟩
  · exact RoomView.replica.keeps_nothing s' _
  obtain ⟨es₁, es₂, rfl, changed, w₁, h₁, h₂⟩ := does_bind h
  obtain ⟨hmute, ⟨e, rfl, hhub⟩ | ⟨y, r', rfl, hhub, hids⟩⟩ := hop ref h₁
  · obtain ⟨-, rfl, rfl⟩ := does_done h₂
    rw [List.append_nil]
    exact Hub.keeps_of_unheard hhub (hmute s'.line)
  · obtain ⟨_, -, h₃⟩ := does_answer h₂
    exact RoomNews.keeps_sendUpdate ht hr hids hmute hhub h₃ s'

theorem keeps_finishIn {ref : RoomRef} {winner : Option Int32} (ht : w.hub.WellFormed)
    (hr : w.hub.openRooms.get? ref.id = some ref)
    (h : (finishMatch.finishIn s ref winner).Does w x w' es) (s' : Session) :
    RoomView.replica.Keeps s' w.hub es w'.hub := by
  obtain ⟨es₁, es₂, rfl, finished, w₁, h₁, h₂⟩ := does_bind h
  have hedits : ref.Edits (ref.finish s.id) :=
    RoomRef.edits_changeAll fun _ _ hok => (Room.finish_ok hok).ids
  obtain ⟨hmute, ⟨e, rfl, hhub⟩ | ⟨y, r', rfl, hhub, hids⟩⟩ := hedits h₁
  · obtain ⟨-, rfl, rfl⟩ := does_done h₂
    rw [List.append_nil]
    exact Hub.keeps_of_unheard hhub (hmute s'.line)
  cases winner with
  | none =>
    obtain ⟨_, -, h₃⟩ := does_answer h₂
    exact RoomNews.keeps_sendUpdate ht hr hids hmute hhub h₃ s'
  | some user =>
    obtain ⟨es₃, es₄, rfl, won, w₂, h₃, h₄⟩ := does_bind h₂
    obtain ⟨_, -, h₅⟩ := does_answer h₄
    have hwin : ref.Edits (ref.addWin user) := RoomRef.edits_changePlayer
      (fun _ _ _ hok => Room.ids_modifyMember (f := Member.win) (fun _ => rfl) hok) _
    obtain ⟨hmute', hwon⟩ := hwin h₃
    -- with or without the win, the members are those that were there
    have hedited : ∃ r₂ : Room, w₂.hub = w.hub.setRoom ref r₂ ∧ r₂.ids = (w.hub.room ref).ids := by
      rcases hwon with ⟨e, -, hsame⟩ | ⟨_, r₂, -, hhub₂, hids₂⟩
      · exact ⟨r', hsame.trans hhub, hids⟩
      · rw [hhub, ht.room_setRoom hr] at hids₂
        refine ⟨r₂, ?_, hids₂.trans hids⟩
        rw [hhub₂, hhub, Hub.setRoom_setRoom]
    obtain ⟨r₂, hhub₂, hids₂⟩ := hedited
    rw [← List.append_assoc]
    refine RoomNews.keeps_sendUpdate ht hr hids₂ (fun n => ?_) hhub₂ h₅ s'
    rw [heardAt_append, hmute, hmute', List.append_nil]

theorem keeps_finishMatch {winner : Option Int32} (ht : w.hub.WellFormed)
    (h : (s.finishMatch winner).Does w x w' es) (s' : Session) :
    RoomView.replica.Keeps s' w.hub es w'.hub := by
  rcases inRoom_does ht h with ⟨rfl, rfl⟩ | ⟨ref, hr, h⟩
  · exact RoomView.replica.keeps_nothing s' _
  cases winner with
  | none => exact keeps_finishIn ht hr h s'
  | some user =>
    replace h := does_read_bind h
    split at h
    · exact keeps_finishIn ht hr h s'
    · obtain ⟨-, rfl, rfl⟩ := does_done h
      exact RoomView.replica.keeps_nothing s' _

theorem keeps_closeRoom (ht : w.hub.WellFormed) (h : s.closeRoom.Does w x w' es) (s' : Session) :
    RoomView.replica.Keeps s' w.hub es w'.hub := by
  rcases inRoom_does ht h with ⟨rfl, rfl⟩ | ⟨ref, hr, h⟩
  · exact RoomView.replica.keeps_nothing s' _
  obtain ⟨es₁, es₂, rfl, closed, w₁, h₁, h₂⟩ := does_bind h
  have hkeeps := Rooms.keeps_remove ht h₁ s'
  cases closed with
  | error e =>
    obtain ⟨-, rfl, rfl⟩ := does_done h₂
    rw [List.append_nil]
    exact hkeeps
  | ok members =>
    obtain ⟨_, -, h₃⟩ := does_answer h₂
    exact hkeeps _ _ _ h₃

theorem keeps_leaveRoom (ht : w.hub.WellFormed) (h : s.leaveRoom.Does w x w' es) (s' : Session) :
    RoomView.replica.Keeps s' w.hub es w'.hub := by
  obtain ⟨es₁, es₂, rfl, left, w₁, h₁, h₂⟩ := does_bind h
  have hkeeps := RoomNews.keeps_leaveCurrent ht h₁ s'
  split at h₂
  · obtain ⟨-, rfl, rfl⟩ := does_done h₂
    rwa [List.append_nil]
  · obtain ⟨-, rfl, rfl⟩ := does_done h₂
    rwa [List.append_nil]

end Session
end RhythmLobby
