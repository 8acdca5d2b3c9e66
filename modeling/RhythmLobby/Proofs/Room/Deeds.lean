import RhythmLobby.Proofs.Room.Places

/-!
# What packets make of rooms

A packet is refused and leaves rooms as they are, or it does one thing to one room.

* `Room.ChangedBy`              what is made of a room while its members stay;
* `Session.changes_handle`      packets with which nobody comes or goes;
* `Session.own_handle`          packets that have nothing to do with rooms;
* `Session.Deed`, `Session.deed_handle`   all that packets do to memory.
-/

namespace RhythmLobby
open Routine World

/-! ## Rooms -/

namespace Room

/-- what an accepted packet of a user makes of the room, while everybody stays in it -/
def ChangedBy (user : Int32) : ClientPacket → Room → Room → Prop
  | .roomReady ready, r, r' => ∃ record, r.setReady user ready = .ok (record, r')
  | .roomHasMap hasMap, r, r' => ∃ record, r.setHasMap user hasMap = .ok (record, r')
  | .roomMods modifiers, r, r' => ∃ record, r.setModifiers user modifiers = .ok (record, r')
  | .roomSettings patch, r, r' => r.updateSettings user patch = .ok r'
  | .roomMap map, r, r' => r.changeMap user map = .ok r'
  | .roomStart, r, r' => r.start user = .ok r'
  | .roomFinish none, r, r' => r.finish user = .ok r'
  | .roomFinish (some winner), r, r' =>
    winner ∈ r.ids ∧ ∃ r₁ record, r.finish user = .ok r₁ ∧ r₁.addWin winner = .ok (record, r')
  | .roomHost heir, r, r' => r.transferHost user heir = .ok r'
  | _, _, _ => False

variable {user : Int32} {p : ClientPacket} {r r' : Room}

/-- A member changes what is its own, or the host changes the room. -/
theorem ChangedBy.kinds (h : r.ChangedBy user p r') :
    (∃ f record, (∀ m : Member, (f m).id = m.id) ∧ r.modifyMember user f = .ok (record, r')) ∨
      (r.closed = false ∧ r.settings.hostId = user ∧ r'.ids = r.ids ∧ (r.Sound → r'.Sound)) := by
  cases p with
  | roomReady ready =>
    obtain ⟨record, h⟩ := h
    exact .inl ⟨fun m => { m with ready := ready }, record, fun _ => rfl, h⟩
  | roomHasMap hasMap =>
    obtain ⟨record, h⟩ := h
    exact .inl ⟨fun m => { m with hasMap := hasMap }, record, fun _ => rfl, h⟩
  | roomMods modifiers =>
    obtain ⟨record, h⟩ := h
    exact .inl ⟨fun m => { m with modifiers := modifiers }, record, fun _ => rfl, h⟩
  | roomSettings patch =>
    obtain ⟨hopen, hhost, -⟩ := updateSettings_inv h
    have hids := congrArg (List.map Member.id) (updateSettings_ok h).members
    exact .inr ⟨hopen, hhost, hids, fun hr => hr.updateSettings h⟩
  | roomMap map =>
    obtain ⟨hopen, hhost, -⟩ := changeMap_inv h
    exact .inr ⟨hopen, hhost, (changeMap_ok h).ids, fun hr => hr.changeMap h⟩
  | roomStart =>
    obtain ⟨hopen, hhost, -⟩ := start_inv h
    have hids := congrArg (List.map Member.id) (start_ok h).members
    exact .inr ⟨hopen, hhost, hids, fun hr => hr.start h⟩
  | roomHost heir =>
    obtain ⟨hopen, hhost, -⟩ := transferHost_inv h
    have hids := congrArg (List.map Member.id) (transferHost_ok h).members
    exact .inr ⟨hopen, hhost, hids, fun hr => hr.transferHost h⟩
  | roomFinish winner =>
    cases winner with
    | none =>
      obtain ⟨hopen, hhost, -⟩ := finish_inv h
      exact .inr ⟨hopen, hhost, (finish_ok h).ids, fun hr => hr.finish h⟩
    | some winner =>
      obtain ⟨-, r₁, record, hfinish, hwin⟩ := h
      obtain ⟨hopen, hhost, -⟩ := finish_inv hfinish
      have hids := ids_modifyMember (f := Member.win) (fun _ => rfl) hwin
      exact .inr ⟨hopen, hhost, hids.trans (finish_ok hfinish).ids, fun hr =>
        (hr.finish hfinish).modifyMember (f := Member.win) (fun _ => rfl) hwin⟩
  | _ => exact h.elim

theorem ChangedBy.sound (hr : r.Sound) (h : r.ChangedBy user p r') : r'.Sound := by
  rcases h.kinds with ⟨f, record, hf, h⟩ | ⟨-, -, -, h⟩
  · exact hr.modifyMember hf h
  · exact h hr

theorem ChangedBy.ids (h : r.ChangedBy user p r') : r'.ids = r.ids := by
  rcases h.kinds with ⟨f, record, hf, h⟩ | ⟨-, -, hids, -⟩
  · exact ids_modifyMember hf h
  · exact hids

theorem ChangedBy.member (hr : r.Sound) (h : r.ChangedBy user p r') : user ∈ r.ids := by
  rcases h.kinds with ⟨f, record, -, h⟩ | ⟨hopen, rfl, -, -⟩
  · exact (modifyMember_inv h).2.1
  · exact (hr.inhabited hopen).2.2

theorem addWin_of_mem {winner : Int32} (hopen : r.closed = false) (hmem : winner ∈ r.ids) :
    ∃ record, r.addWin winner = .ok (record, r.modify winner Member.win) := by
  have hids : (r.modify winner Member.win).ids = r.ids := by
    refine ids_map (fun m => ?_) r.members
    split <;> rfl
  obtain ⟨record, hrecord⟩ : ∃ record, (r.modify winner Member.win).record winner = some record :=
    Option.ne_none_iff_exists'.mp fun hnone => record_eq_none_iff.mp hnone (hids ▸ hmem)
  refine ⟨record, ?_⟩
  have hcheck : r.checkMember winner = .ok () := by
    have hcalled : r.checkOpen = .ok () := if_neg (hopen ▸ Bool.false_ne_true)
    rw [checkMember, hcalled, hasMember_iff.mpr hmem]
    rfl
  simp only [addWin, modifyMember, hcheck, hrecord]
  rfl

end Room

/-! ## Tasks -/

namespace RoomRef

variable {α β : Type} {ref : RoomRef}

/-- the task is refused and leaves memory as it is, or it makes this of the room -/
def Makes (ref : RoomRef) (step : Room → Room → Prop) (r : Routine (Except RoomError α)) : Prop :=
  ∀ ⦃w x w'⦄, r.Ends w x w' → (∃ e, x = .error e ∧ w'.hub = w.hub) ∨
    ∃ y r', x = .ok y ∧ step (w.hub.room ref) r' ∧ w'.hub = w.hub.setRoom ref r'

theorem makes_changePlayer (op : Room → Except RoomError (PlayerRecord × Room))
    (f : PlayerRecord → β) : ref.Makes (fun r r' => ∃ record, op r = .ok (record, r'))
      ((ref.changePlayer op).bind fun x => .done (x.map f)) := by
  intro w x w' h
  obtain ⟨y, w₁, h₁, h⟩ := ends_bind.mp h
  obtain ⟨rfl, rfl⟩ := ends_done.mp h
  rcases changePlayer_ends h₁ with ⟨e, rfl, hhub⟩ | ⟨record, r', hok, rfl, hhub⟩
  · exact .inl ⟨e, rfl, hhub⟩
  · exact .inr ⟨_, r', rfl, ⟨record, hok⟩, hhub⟩

theorem makes_changeListing (op : Room → Except RoomError Room) :
    ref.Makes (fun r r' => op r = .ok r') (ref.changeListing op) := by
  intro w x w' h
  rcases changeListing_ends h with hsame | ⟨r', hok, rfl, hhub⟩
  · exact .inl hsame
  · exact .inr ⟨_, r', rfl, hok, hhub⟩

theorem makes_changeAll (op : Room → Except RoomError Room) :
    ref.Makes (fun r r' => op r = .ok r') (ref.changeAll op) := by
  intro w x w' h
  rcases changeAll_ends h with hsame | ⟨r', hok, rfl, hhub⟩
  · exact .inl hsame
  · exact .inr ⟨_, r', rfl, hok, hhub⟩

theorem changePlayer_given {op : Room → Except RoomError (PlayerRecord × Room)} {w w' : World}
    {x : Except RoomError PlayerRecord} {record : PlayerRecord} {r' : Room}
    (hop : op (w.hub.room ref) = .ok (record, r')) (h : (ref.changePlayer op).Ends w x w') :
    w'.hub = w.hub.setRoom ref r' := by
  obtain ⟨y, w₁, h₁, h⟩ := ends_bind.mp h
  obtain ⟨rfl, rfl⟩ := ends_transact.mp h₁
  rw [hop] at h
  exact ((ref.calm_writePlayer record).bind fun _ => calm_done _).ends h

end RoomRef

/-! ## Packets -/

/-- the room that the user is noted to be in can be found, and is this one -/
def Hub.Places (h : Hub) (user : Int32) (ref : RoomRef) : Prop :=
  ∃ room, h.memberships.get? user = some room ∧ h.openRooms.get? room = some ref

namespace Session

variable {s : Session} {w w' : World} {x : Except Refusal Unit}

theorem inRoom_ends {task : RoomRef → Routine (Except Refusal Unit)}
    (h : (s.inRoom task).Ends w x w') : (∃ e, x = .error e ∧ w'.hub = w.hub) ∨
      ∃ ref, w.hub.Places s.id ref ∧ (task ref).Ends w x w' := by
  obtain ⟨found, w₁, h₁, hrest⟩ := ends_bind.mp h
  obtain ⟨place, w₂, h₂, h₃⟩ := ends_bind.mp h₁
  obtain ⟨hplace, rfl⟩ := ends_read.mp h₂
  cases place with
  | none =>
    obtain ⟨rfl, rfl⟩ := ends_done.mp h₃
    obtain ⟨rfl, rfl⟩ := ends_done.mp hrest
    exact .inl ⟨_, rfl, rfl⟩
  | some room =>
    obtain ⟨hfound, rfl⟩ := ends_read.mp h₃
    cases found with
    | none =>
      obtain ⟨rfl, rfl⟩ := ends_done.mp hrest
      exact .inl ⟨_, rfl, rfl⟩
    | some ref => exact .inr ⟨ref, ⟨room, hplace.symm, hfound.symm⟩, hrest⟩

theorem changeRoom_ends {op : RoomRef → Routine (Except RoomError Unit)}
    {step : Room → Room → Prop} (hop : ∀ ref : RoomRef, ref.Makes step (op ref))
    (h : (s.changeRoom op).Ends w x w') : (∃ e, x = .error e ∧ w'.hub = w.hub) ∨
      ∃ ref r', w.hub.Places s.id ref ∧ x = .ok () ∧ step (w.hub.room ref) r' ∧
        w'.hub = w.hub.setRoom ref r' := by
  rcases inRoom_ends h with hrefused | ⟨ref, hplace, h⟩
  · exact .inl hrefused
  obtain ⟨changed, w₁, h₁, h⟩ := ends_bind.mp h
  rcases hop ref h₁ with ⟨e, rfl, hsame⟩ | ⟨y, r', rfl, hstep, hhub⟩
  · obtain ⟨rfl, rfl⟩ := ends_done.mp h
    exact .inl ⟨_, rfl, hsame⟩
  · obtain ⟨_, w₂, h₂, h⟩ := ends_bind.mp h
    obtain ⟨rfl, rfl⟩ := ends_done.mp h
    exact .inr ⟨ref, r', hplace, rfl, hstep, ((RoomNews.calm_sendUpdate ref).ends h₂).trans hhub⟩

theorem finishIn_ends {ref : RoomRef} {winner : Option Int32}
    (hmade : ref.key < w.hub.rooms.length)
    (hmem : ∀ v, winner = some v → v ∈ (w.hub.room ref).ids)
    (h : (finishMatch.finishIn s ref winner).Ends w x w') : (∃ e, x = .error e ∧ w'.hub = w.hub) ∨
      ∃ r', x = .ok () ∧ (w.hub.room ref).ChangedBy s.id (.roomFinish winner) r' ∧
        w'.hub = w.hub.setRoom ref r' := by
  obtain ⟨finished, w₁, h₁, h⟩ := ends_bind.mp h
  rcases RoomRef.changeAll_ends h₁ with ⟨e, rfl, hsame⟩ | ⟨r₁, hfinish, rfl, hhub⟩
  · obtain ⟨rfl, rfl⟩ := ends_done.mp h
    exact .inl ⟨_, rfl, hsame⟩
  have hend : ∀ {w₂ : World}, ((RoomNews.sendUpdate ref).bind fun _ =>
      .done (.ok () : Except Refusal Unit)).Ends w₂ x w' → x = .ok () ∧ w'.hub = w₂.hub := by
    intro w₂ h
    obtain ⟨_, w₃, h₃, h⟩ := ends_bind.mp h
    obtain ⟨rfl, rfl⟩ := ends_done.mp h
    exact ⟨rfl, (RoomNews.calm_sendUpdate ref).ends h₃⟩
  cases winner with
  | none =>
    obtain ⟨hx, hsame⟩ := hend h
    exact .inr ⟨r₁, hx, hfinish, hsame.trans hhub⟩
  | some v =>
    obtain ⟨won, w₂, h₂, h⟩ := ends_bind.mp h
    obtain ⟨hx, hsame⟩ := hend h
    obtain ⟨y, w₃, h₃, h₂⟩ := ends_bind.mp h₂
    obtain ⟨-, rfl⟩ := ends_done.mp h₂
    have hroom : w₁.hub.room ref = r₁ := by
      rw [hhub]
      exact Hub.room_setRoom hmade r₁
    have hv : v ∈ r₁.ids := (Room.finish_ok hfinish).ids ▸ hmem v rfl
    obtain ⟨record, hwin⟩ := Room.addWin_of_mem (Room.finish_ok hfinish).isOpen hv
    have hwon := RoomRef.changePlayer_given (hroom.symm ▸ hwin) h₃
    refine .inr ⟨_, hx, ⟨hmem v rfl, r₁, record, hfinish, hwin⟩, ?_⟩
    rw [hsame, hwon, hroom, hhub]
    simp only [Hub.setRoom, List.set_set]

theorem finishMatch_ends {winner : Option Int32} {n : Nat} (hn : w.hub.Numbered n)
    (h : (s.finishMatch winner).Ends w x w') : (∃ e, x = .error e ∧ w'.hub = w.hub) ∨
      ∃ ref r', w.hub.Places s.id ref ∧ x = .ok () ∧
        (w.hub.room ref).ChangedBy s.id (.roomFinish winner) r' ∧
        w'.hub = w.hub.setRoom ref r' := by
  rcases inRoom_ends h with hrefused | ⟨ref, hplace, h⟩
  · exact .inl hrefused
  have hmade : ref.key < w.hub.rooms.length := by
    obtain ⟨room, -, hr⟩ := hplace
    exact hn.made hr
  suffices (∃ e, x = .error e ∧ w'.hub = w.hub) ∨ ∃ r', x = .ok () ∧
      (w.hub.room ref).ChangedBy s.id (.roomFinish winner) r' ∧ w'.hub = w.hub.setRoom ref r' by
    rcases this with hrefused | ⟨r', hx, hchanged, hhub⟩
    · exact .inl hrefused
    · exact .inr ⟨ref, r', hplace, hx, hchanged, hhub⟩
  cases winner with
  | none => exact finishIn_ends hmade nofun h
  | some v =>
    obtain ⟨members, w₁, h₁, h⟩ := ends_bind.mp h
    obtain ⟨rfl, rfl⟩ := ends_read.mp h₁
    split at h
    · rename_i hmem
      refine finishIn_ends hmade (fun v' hv' => ?_) h
      cases hv'
      exact hmem
    · obtain ⟨rfl, rfl⟩ := ends_done.mp h
      exact .inl ⟨_, rfl, rfl⟩

/-- A packet with which nobody comes or goes is refused, or it changes the room that the user is
noted to be in. -/
theorem changes_handle {p : ClientPacket} {n : Nat} (hp : p.OfRoom) (he : ¬ p.Enters)
    (hc : ¬ p.Clears) (hn : w.hub.Numbered n) (h : (s.handle p).Ends w x w') :
    (∃ e, x = .error e ∧ w'.hub = w.hub) ∨
      ∃ ref r', w.hub.Places s.id ref ∧ x = .ok () ∧ (w.hub.room ref).ChangedBy s.id p r' ∧
        w'.hub = w.hub.setRoom ref r' := by
  cases p with
  | roomReady ready => exact changeRoom_ends (fun _ => RoomRef.makes_changePlayer _ _) h
  | roomHasMap hasMap => exact changeRoom_ends (fun _ => RoomRef.makes_changePlayer _ _) h
  | roomMods modifiers => exact changeRoom_ends (fun _ => RoomRef.makes_changePlayer _ _) h
  | roomSettings patch => exact changeRoom_ends (fun _ => RoomRef.makes_changeListing _) h
  | roomMap map => exact changeRoom_ends (fun _ => RoomRef.makes_changeAll _) h
  | roomStart => exact changeRoom_ends (fun _ => RoomRef.makes_changeListing _) h
  | roomHost user => exact changeRoom_ends (fun _ => RoomRef.makes_changeListing _) h
  | roomFinish winner => exact finishMatch_ends hn h
  | roomCreate => exact absurd trivial he
  | roomJoin => exact absurd trivial he
  | roomLeave => exact absurd trivial hc
  | roomClose => exact absurd trivial hc
  | _ => exact hp.elim

/-- what is answered to a request that a room may refuse -/
def answer {α : Type} : Except RoomError α → Except Refusal Unit
  | .error e => .error (.room e)
  | .ok _ => .ok ()

theorem createRoom_ends {request : RoomRequest} (h : (s.createRoom request).Ends w x w') :
    (∃ e, x = .error e ∧ w'.hub = w.hub) ∨ ∃ y w₁,
      (Rooms.create request s.profile.toPlayer).Ends w y w₁ ∧ x = answer y ∧
        w'.hub = w₁.hub := by
  obtain ⟨muted, w₁, h₁, hrest⟩ := ends_bind.mp h
  obtain ⟨-, rfl⟩ := ends_read.mp h₁
  split at hrest
  · obtain ⟨rfl, rfl⟩ := ends_done.mp hrest
    exact .inl ⟨_, rfl, rfl⟩
  obtain ⟨y, w₂, h₂, h⟩ := ends_bind.mp hrest
  refine .inr ⟨y, w₂, h₂, ?_⟩
  cases y with
  | error e =>
    obtain ⟨rfl, rfl⟩ := ends_done.mp h
    exact ⟨rfl, rfl⟩
  | ok ref =>
    obtain ⟨_, w₃, h₃, h⟩ := ends_bind.mp h
    obtain ⟨_, w₄, h₄, h⟩ := ends_bind.mp h
    obtain ⟨rfl, rfl⟩ := ends_done.mp h
    exact ⟨rfl, ((calm_emit _).ends h₄).trans ((calm_read _).ends h₃)⟩

theorem joinRoom_ends {room : Int32} {guess : Option String}
    (h : (s.joinRoom room guess).Ends w x w') : ∃ y w₁,
      (Rooms.join room s.profile.toPlayer guess).Ends w y w₁ ∧ x = answer y ∧
        w'.hub = w₁.hub := by
  obtain ⟨y, w₁, h₁, h⟩ := ends_bind.mp h
  refine ⟨y, w₁, h₁, ?_⟩
  cases y with
  | error e =>
    obtain ⟨rfl, rfl⟩ := ends_done.mp h
    exact ⟨rfl, rfl⟩
  | ok ref =>
    obtain ⟨_, w₂, h₂, h⟩ := ends_bind.mp h
    obtain ⟨_, w₃, h₃, h⟩ := ends_bind.mp h
    obtain ⟨_, w₄, h₄, h⟩ := ends_bind.mp h
    obtain ⟨_, w₅, h₅, h⟩ := ends_bind.mp h
    obtain ⟨rfl, rfl⟩ := ends_done.mp h
    refine ⟨rfl, ?_⟩
    rw [(RoomNews.calm_notify _ _).ends h₅, (calm_read _).ends h₄, (calm_emit _).ends h₃,
      (calm_read _).ends h₂]

theorem leaveRoom_ends (h : s.leaveRoom.Ends w x w') : ∃ left w₁,
    (Rooms.leave s.id).Ends w left w₁ ∧ w'.hub = w₁.hub := by
  obtain ⟨found, w₁, h₁, h⟩ := ends_bind.mp h
  obtain ⟨left, w₂, h₂, hsame⟩ := RoomNews.leaveCurrent_ends h₁
  refine ⟨left, w₂, h₂, ?_⟩
  cases found with
  | true =>
    obtain ⟨-, rfl⟩ := ends_done.mp h
    exact hsame
  | false =>
    obtain ⟨-, rfl⟩ := ends_done.mp h
    exact hsame

theorem closeRoom_ends (h : s.closeRoom.Ends w x w') : (∃ e, x = .error e ∧ w'.hub = w.hub) ∨
    ∃ ref y w₁, w.hub.Places s.id ref ∧ (Rooms.remove ref.id (some s.id)).Ends w y w₁ ∧
      x = answer y ∧ w'.hub = w₁.hub := by
  rcases inRoom_ends h with hrefused | ⟨ref, hplace, h⟩
  · exact .inl hrefused
  obtain ⟨y, w₁, h₁, h⟩ := ends_bind.mp h
  refine .inr ⟨ref, y, w₁, hplace, h₁, ?_⟩
  cases y with
  | error e =>
    obtain ⟨rfl, rfl⟩ := ends_done.mp h
    exact ⟨rfl, rfl⟩
  | ok members =>
    obtain ⟨_, w₂, h₂, h⟩ := ends_bind.mp h
    obtain ⟨rfl, rfl⟩ := ends_done.mp h
    exact ⟨rfl, (RoomNews.calm_notify _ _).ends h₂⟩

end Session

/-! ## Sessions -/

namespace Routine

variable {α β : Type} {s : Session} {r : Routine α} {w w' : World} {x : α}

/-- the task changes the state of one session, and nothing else in memory -/
def Own (s : Session) (r : Routine α) : Prop :=
  r.Within (fun h h' => ∃ states, h' = { h with sessions := states } ∧
    ∀ k, k ≠ s.key → states[k]? = h.sessions[k]?) fun _ => True

theorem Calm.own (hr : r.Calm) : r.Own s :=
  hr.mono (fun _ _ hm => ⟨_, hm, fun _ _ => rfl⟩) fun _ => id

theorem Own.bind {f : α → Routine β} (hr : r.Own s) (hf : ∀ x, (f x).Own s) : (r.bind f).Own s :=
  within_bind hr hf

theorem own_modifyState (f : Hub → SessionState → SessionState) (g : Hub → β) :
    (transact fun h => (g h, h.modifyState s (f h))).Own s :=
  within_transact fun _ => ⟨_, rfl, fun _ hk => List.getElem?_set_ne (Ne.symm hk)⟩

theorem Own.ends (hr : r.Own s) (h : r.Ends w x w') : ∃ states,
    w'.hub = { w.hub with sessions := states } ∧
      ∀ k, k ≠ s.key → states[k]? = w.hub.sessions[k]? := by
  refine Within.induction (P := fun v => ∃ states, v.hub = { w.hub with sessions := states } ∧
    ∀ k, k ≠ s.key → states[k]? = w.hub.sessions[k]?) hr ?_ ?_ h ⟨_, rfl, fun _ _ => rfl⟩
  · intro v _ hlast hbefore
    obtain ⟨states, hv, hothers⟩ := hlast
    obtain ⟨states', rfl, hothers'⟩ := hbefore
    refine ⟨states', by rw [hv], fun k hk => ?_⟩
    rw [hothers' k hk, hv]
    exact hothers k hk
  · intro v e hv _
    rw [Effect.perform_hub]
    exact hv

theorem RoomsOnly.sameSessions (hr : r.RoomsOnly) (h : r.Ends w x w') :
    SameSessions w.hub w'.hub := by
  refine Within.induction (P := fun v => SameSessions w.hub v.hub) hr ?_ ?_ h ⟨rfl, rfl⟩
  · exact fun v h hv hm => ⟨hm.1.trans hv.1, hm.2.trans hv.2⟩
  · intro v e hv _
    rw [Effect.perform_hub]
    exact hv

end Routine

namespace Session

variable (s : Session)

theorem own_changeStatus (status : ClientStatus) : (s.changeStatus status).Own s := by
  have hset : (s.setStatus status).Own s := by
    refine Own.bind (own_modifyState _ _) fun retired => ?_
    split
    · exact (calm_done _).own
    · exact ((calm_update _).bind fun _ => calm_settling _ _).own
  refine hset.bind fun ok => ?_
  split
  · exact ((silent_announce _).calm.bind fun _ => calm_done _).own
  · exact ((calm_settling _ _).bind fun _ => calm_done _).own

theorem own_sendStats : s.sendStats.Own s := by
  refine Own.bind ?_ fun loaded => ?_
  · refine (calm_read _).own.bind fun loaded => ?_
    cases loaded with
    | error e => exact (calm_done _).own
    | ok stats =>
      exact Own.bind (own_modifyState (fun _ state => { state with stats := stats }) fun _ => ())
        fun _ => (calm_done _).own
  · cases loaded with
    | error e => exact (calm_done _).own
    | ok _ => exact ((calm_read _).bind fun _ => (calm_emit _).bind fun _ => calm_done _).own

theorem own_handle {p : ClientPacket} (hp : ¬ p.OfRoom) : (s.handle p).Own s := by
  cases p with
  | login name password => exact (calm_done _).own
  | ping => exact ((calm_emit _).bind fun _ => calm_done _).own
  | pong =>
    exact Own.bind (own_modifyState (fun h state => { state with lastPong := h.clock }) fun _ => ())
      fun _ => (calm_done _).own
  | status status => exact s.own_changeStatus status
  | processes list =>
    exact Own.bind (own_modifyState (fun _ state => { state with processes := list }) fun _ => ())
      fun _ => (calm_done _).own
  | statsRequest => exact s.own_sendStats
  | _ => exact absurd trivial hp

end Session

/-! ## Deeds -/

/-- what a packet of a session, to which `x` is the answer, does to memory -/
inductive Session.Deed (s : Session) (w : World) :
    ClientPacket → Except Refusal Unit → Hub → Prop
  | own {p : ClientPacket} {x : Except Refusal Unit} {states : List SessionState} : ¬ p.OfRoom →
      (∀ k, k ≠ s.key → states[k]? = w.hub.sessions[k]?) →
      Deed s w p x { w.hub with sessions := states }
  | refused {p : ClientPacket} {e : Refusal} : Deed s w p (.error e) w.hub
  | changed {p : ClientPacket} {ref : RoomRef} {r' : Room} : w.hub.Places s.id ref →
      (w.hub.room ref).ChangedBy s.id p r' → Deed s w p (.ok ()) (w.hub.setRoom ref r')
  | created {p : ClientPacket} {request : RoomRequest} {y : Except RoomError RoomRef}
      {w' : World} : p.asksForRoom → (Rooms.create request s.profile.toPlayer).Ends w y w' →
      Deed s w p (answer y) w'.hub
  | joined {room : Int32} {guess : Option String} {y : Except RoomError RoomRef} {w' : World} :
      (Rooms.join room s.profile.toPlayer guess).Ends w y w' →
      Deed s w (.roomJoin room guess) (answer y) w'.hub
  | left {x : Except Refusal Unit} {left : Option (RoomRef × LeaveOutcome)} {w' : World} :
      (Rooms.leave s.id).Ends w left w' → Deed s w .roomLeave x w'.hub
  | closed {ref : RoomRef} {y : Except RoomError (List Int32)} {w' : World} :
      w.hub.Places s.id ref → (Rooms.remove ref.id (some s.id)).Ends w y w' →
      Deed s w .roomClose (answer y) w'.hub

theorem Session.deed_handle {s : Session} {w w' : World} {p : ClientPacket}
    {x : Except Refusal Unit} {n : Nat} (hn : w.hub.Numbered n) (h : (s.handle p).Ends w x w') :
    s.Deed w p x w'.hub := by
  by_cases hp : p.OfRoom
  · by_cases he : p.Enters
    · cases p with
      | roomCreate name password maxPlayers map =>
        rcases createRoom_ends h with ⟨e, rfl, hhub⟩ | ⟨y, w₁, h₁, rfl, hhub⟩
        · exact hhub ▸ .refused
        · exact hhub ▸ .created rfl h₁
      | roomJoin room guess =>
        obtain ⟨y, w₁, h₁, rfl, hhub⟩ := joinRoom_ends h
        exact hhub ▸ .joined h₁
      | _ => exact he.elim
    by_cases hc : p.Clears
    · cases p with
      | roomLeave =>
        obtain ⟨left, w₁, h₁, hhub⟩ := leaveRoom_ends h
        exact hhub ▸ .left h₁
      | roomClose =>
        rcases closeRoom_ends h with ⟨e, rfl, hhub⟩ | ⟨ref, y, w₁, hplace, h₁, rfl, hhub⟩
        · exact hhub ▸ .refused
        · exact hhub ▸ .closed hplace h₁
      | _ => exact hc.elim
    rcases changes_handle hp he hc hn h with ⟨e, rfl, hhub⟩ | ⟨ref, r', hplace, rfl, hchanged, hhub⟩
    · exact hhub ▸ .refused
    · exact hhub ▸ .changed hplace hchanged
  · obtain ⟨states, hhub, hothers⟩ := (s.own_handle hp).ends h
    exact hhub ▸ .own hp hothers

end RhythmLobby
