import RhythmLobby.Proofs.Authority

/-!
# Whoever is noted to be in a room is in it

Members are noted to be in their rooms, and as long as no id is given away twice, notes lead nowhere
else.

* `Hub.NotesValid`               whoever is noted to be in a room is a member of it;
* `Rooms.notesValid_leave` to `Rooms.notesValid_create`   users come and go;
* `Act.notesValid`               no act gives anybody a note that leads nowhere;
* `Course.notesValid`            so that there never are any.
-/

namespace RhythmLobby
open Cache Routine World

/-! ## Notes given back -/

namespace Table

variable {κ ν : Type} [DecidableEq κ] {t : Table κ ν} {k : κ}

theorem erase_of_none (h : t.get? k = none) : t.erase k = t := by
  refine eq_of_entries (List.filter_eq_self.mpr fun e he => ?_)
  rw [get?_eq_none_iff] at h
  exact decide_eq_true fun hk => h (List.mem_map.mpr ⟨e, he, hk⟩)

theorem erase_insert (h : t.get? k = none) (v : ν) : (t.insert k v).erase k = t := by
  have hnew : k ∉ t.entries.map (·.1) := get?_eq_none_iff.mp h
  have hold : t.entries.filter (fun e => decide (e.1 ≠ k)) = t.entries :=
    congrArg entries (erase_of_none h)
  apply eq_of_entries
  rw [insert, dif_neg hnew]
  show (t.entries ++ [(k, v)]).filter (fun e => decide (e.1 ≠ k)) = t.entries
  rw [List.filter_append, hold]
  simp

end Table

/-- a place that was reserved is given back, and all is as it was -/
theorem Hub.release_note {h : Hub} {user : Int32} (hnew : h.memberships.get? user = none)
    (room : Int32) : Rooms.release user room (h.note user room) = h := by
  rw [Rooms.release, if_pos ((get?_note user).trans (if_pos rfl))]
  show { h with memberships := (h.memberships.insert user room).erase user } = h
  rw [Table.erase_insert hnew]

/-! ## Notes -/

namespace Hub

/-- whoever is noted to be in a room is a member of it, and the room can be found -/
def NotesValid (h : Hub) : Prop := ∀ user id, h.memberships.get? user = some id →
  ∃ ref, h.openRooms.get? id = some ref ∧ user ∈ (h.room ref).ids

variable {n : Nat} {h h' : Hub} {ref : RoomRef} {r' : Room} {user room : Int32}

theorem NotesValid.of_seats (hl : h.NotesValid) (hopen : h'.openRooms = h.openRooms)
    (hnotes : h'.memberships = h.memberships) (hids : ∀ ref, (h'.room ref).ids = (h.room ref).ids) :
    h'.NotesValid := by
  intro v id hv
  rw [hnotes] at hv
  obtain ⟨ref, hr, hmem⟩ := hl _ _ hv
  exact ⟨ref, hopen ▸ hr, (hids ref).symm ▸ hmem⟩

theorem NotesValid.of_rooms (hl : h.NotesValid) (hopen : h'.openRooms = h.openRooms)
    (hnotes : h'.memberships = h.memberships) (hrooms : h'.rooms = h.rooms) : h'.NotesValid :=
  hl.of_seats hopen hnotes fun ref => by rw [Hub.room, Hub.room, hrooms]

/-- Members come to one room and go from it, and no note leads to another one that led elsewhere
before. -/
theorem NotesValid.setRoom (hl : h.NotesValid) (hn : h.Numbered n)
    (hr : h.openRooms.get? room = some ref)
    (hrooms : h'.rooms = h.rooms.set ref.key r') (hopen : h'.openRooms = h.openRooms)
    (hhere : ∀ v, h'.memberships.get? v = some room → v ∈ r'.ids)
    (hthere : ∀ v id, id ≠ room → h'.memberships.get? v = some id →
      h.memberships.get? v = some id) : h'.NotesValid := by
  intro v id hv
  have hid := hn.named hr
  have hstate : ∀ {id' ref'}, h.openRooms.get? id' = some ref' →
      h'.room ref' = if id' = ref.id then r' else h.room ref' := by
    intro id' ref' hr'
    rw [← hn.room_setRoom (hid ▸ hr) hr', Hub.room, Hub.room, hrooms]
    rfl
  by_cases hsame : id = room
  · subst hsame
    refine ⟨ref, hopen ▸ hr, ?_⟩
    rw [hstate hr, if_pos hid.symm]
    exact hhere v hv
  · obtain ⟨ref', hr', hmem⟩ := hl _ _ (hthere v id hsame hv)
    refine ⟨ref', hopen ▸ hr', ?_⟩
    rw [hstate hr', if_neg fun hc => hsame (hc.trans hid)]
    exact hmem

/-- a room that nobody is noted to be in can be found no more -/
theorem NotesValid.drop (hl : h.NotesValid) (hnone : ∀ v, h.memberships.get? v ≠ some room) :
    (Rooms.drop room h).NotesValid := by
  intro v id hv
  replace hv : h.memberships.get? v = some id := hv
  obtain ⟨ref, hr, hmem⟩ := hl _ _ hv
  refine ⟨ref, (Table.get?_erase _ _ _).trans ((if_neg ?_).trans hr), hmem⟩
  intro heq
  subst heq
  exact hnone v hv

theorem NotesValid.vacate (hl : h.NotesValid) (user : Int32) :
    (Rooms.vacate user h).2.NotesValid := by
  intro v id hv
  rw [get?_vacate] at hv
  split at hv
  · cases hv
  · exact hl _ _ hv

theorem NotesValid.leave (hl : h.NotesValid) (hn : h.Numbered n) (ho : h.AllOpen)
    (hr : h.openRooms.get? room = some ref) (user : Int32) :
    let left := (Rooms.vacate user h).2.setRoom ref ((h.room ref).leave user).2
    left.NotesValid ∧ (((h.room ref).leave user).1 = .emptied →
      ∀ v, left.memberships.get? v ≠ some room) := by
  have hids := Room.ids_leave (ho hr) user
  have hhere : ∀ v, (Rooms.vacate user h).2.memberships.get? v = some room →
      v ∈ ((h.room ref).leave user).2.ids := by
    intro v hv
    rw [get?_vacate] at hv
    split at hv
    · cases hv
    rename_i hne
    obtain ⟨ref', hr', hmem⟩ := hl _ _ hv
    rw [hr] at hr'
    cases hr'
    rw [hids, List.mem_filter]
    exact ⟨hmem, by simpa using Ne.symm hne⟩
  refine ⟨hl.setRoom hn hr rfl rfl hhere fun v id _ hv => ?_, fun hempty v hv => ?_⟩
  · replace hv : (Rooms.vacate user h).2.memberships.get? v = some id := hv
    rw [get?_vacate] at hv
    split at hv
    · cases hv
    · exact hv
  · have hmem := hhere v hv
    rcases Room.leave_cases (h.room ref) user with hl | ⟨-, -, ⟨hids, hl⟩ | ⟨-, hl | ⟨host, hl⟩⟩⟩
    · rw [hl] at hempty
      cases hempty
    · rw [hl] at hmem
      replace hmem : v ∈ ((h.room ref).without user).ids := hmem
      rw [hids] at hmem
      cases hmem
    · rw [hl] at hempty
      cases hempty
    · rw [hl] at hempty
      cases hempty

/-- a room is closed, and all notes of its members are taken out -/
theorem NotesValid.remove (hl : h.NotesValid) (hn : h.Numbered n)
    (hr : h.openRooms.get? room = some ref)
    (r' : Room) :
    (Rooms.releaseAll (h.room ref).ids room (Rooms.drop room (h.setRoom ref r'))).NotesValid := by
  have hsame := (Rooms.sameRooms_releaseAll (h.room ref).ids room
    (Rooms.drop room (h.setRoom ref r'))).1
  intro v id hv
  rw [get?_releaseAll] at hv
  split at hv
  · cases hv
  rename_i hother
  replace hv : h.memberships.get? v = some id := hv
  obtain ⟨ref', hr', hmem⟩ := hl _ _ hv
  by_cases hid : id = room
  · subst hid
    rw [hr] at hr'
    cases hr'
    exact absurd ⟨hmem, hv⟩ hother
  · have hnamed := hn.named hr
    refine ⟨ref', ?_, ?_⟩
    · rw [hsame.openRooms]
      exact (Table.get?_erase _ _ _).trans ((if_neg (Ne.symm hid)).trans hr')
    · rw [hsame.room]
      show v ∈ ((h.setRoom ref r').room ref').ids
      rw [hn.room_setRoom (hnamed ▸ hr) hr', if_neg fun hc => hid (hc.trans hnamed)]
      exact hmem

theorem NotesValid.join (hl : h.NotesValid) (hn : h.Numbered n)
    (hr : h.openRooms.get? room = some ref)
    (hids : r'.ids = (h.room ref).ids ++ [user]) :
    ((h.note user room).setRoom ref r').NotesValid := by
  refine hl.setRoom hn hr rfl rfl (fun v hv => ?_) fun v id hid hv => ?_
  all_goals
    replace hv := (get?_note v).symm.trans hv
    split at hv
  · subst v
    rw [hids]
    exact List.mem_append_right _ (List.mem_singleton_self _)
  · obtain ⟨ref', hr', hmem⟩ := hl _ _ hv
    rw [hr] at hr'
    cases hr'
    rw [hids]
    exact List.mem_append_left _ hmem
  · cases hv
    exact absurd rfl hid
  · exact hv

theorem NotesValid.enter {r : Room} (hl : h.NotesValid)
    (hmade : ∀ id ref, h.openRooms.get? id = some ref → ref.key < h.rooms.length)
    (hfree : h.openRooms.get? r.id = none) (hids : r.ids = [user]) :
    (Rooms.enter r (h.note user r.id)).2.NotesValid := by
  intro v id hv
  replace hv := (get?_note v).symm.trans hv
  split at hv
  · subst v
    cases hv
    refine ⟨_, (get?_openRooms_enter _ _ _).trans (if_pos rfl), ?_⟩
    rw [room_enter_new, hids]
    exact List.mem_singleton_self _
  · obtain ⟨ref, hr, hmem⟩ := hl _ _ hv
    have hold : ref.key < (h.note user r.id).rooms.length := hmade id ref hr
    refine ⟨ref, (get?_openRooms_enter _ _ _).trans ((if_neg ?_).trans hr), ?_⟩
    · intro heq
      subst heq
      rw [hfree] at hr
      cases hr
    · rw [room_enter_old hold]
      exact hmem

end Hub

/-! ## Tasks -/

section Tasks

variable {n : Nat} {w w' : World}

namespace Rooms

theorem notesValid_leave {user : Int32} {x : Option (RoomRef × LeaveOutcome)}
    (hn : w.hub.Numbered n)
    (ho : w.hub.AllOpen) (hl : w.hub.NotesValid) (h : (leave user).Ends w x w') :
      w'.hub.NotesValid := by
  rcases leave_ends h with ⟨-, hhub, -⟩ | ⟨room, ref, outcome, r', -, hr, hleave, -, hhub⟩
  · rw [hhub]
    exact hl.vacate user
  · obtain ⟨hleft, hnone⟩ := hl.leave hn ho hr user
    rw [hleave] at hleft hnone
    rw [hhub]
    split
    · exact hleft.drop (hnone ‹_›)
    · exact hleft

theorem notesValid_remove {room : Int32} {caller : Option Int32} {x : Except RoomError (List Int32)}
    (hn : w.hub.Numbered n) (hl : w.hub.NotesValid) (h : (remove room caller).Ends w x w') :
    w'.hub.NotesValid := by
  rcases remove_ends h with ⟨e, -, hhub⟩ | ⟨ref, members, r', hr, hclose, -, hhub⟩
  · rwa [hhub]
  · obtain ⟨-, rfl, -⟩ := Room.close_ok hclose
    rw [hhub]
    exact hl.remove hn hr r'

theorem notesValid_join {room : Int32} {profile : PlayerProfile} {guess : Option String}
    {x : Except RoomError RoomRef} (hn : w.hub.Numbered n) (hl : w.hub.NotesValid)
    (h : (join room profile guess).Ends w x w') : w'.hub.NotesValid := by
  rcases join_ends h with
    ⟨e, -, hhub | ⟨hnew, hhub⟩⟩ | ⟨ref, record, r', hr, -, hjoin, -, hhub⟩
  · rwa [hhub]
  · rw [hhub, Hub.release_note hnew]
    exact hl
  · obtain ⟨-, -, -, -, -, rfl⟩ := Room.join_inv hjoin
    rw [hhub]
    exact hl.join hn hr (by simp [Room.ids, Member.newcomer, Member.id])

theorem notesValid_create {request : RoomRequest} {host : PlayerProfile}
    {x : Except RoomError RoomRef} (hn : w.hub.Numbered n)
    (hfew : ∀ ref, x = .ok ref → n < UInt32.size) (hl : w.hub.NotesValid)
    (h : (create request host).Ends w x w') : w'.hub.NotesValid := by
  have htaken : (takeId w.hub).2.NotesValid := hl.of_rooms rfl rfl rfl
  rcases create_ends h with ⟨e, -, hhub | hhub⟩ | ⟨r, hids, hid, -, hx, hhub⟩
  · rwa [hhub]
  · rwa [hhub]
  · rw [hhub]
    refine htaken.enter (fun _ _ hr => hn.made hr) ?_ hids
    rw [hid]
    exact hn.free (hfew _ hx)

end Rooms

namespace RoomNews

theorem notesValid_leaveCurrent {user : Int32} {x : Bool} (hn : w.hub.Numbered n)
    (ho : w.hub.AllOpen) (hl : w.hub.NotesValid) (h : (leaveCurrent user).Ends w x w') :
    w'.hub.NotesValid := by
  obtain ⟨left, w₁, h₁, hsame⟩ := leaveCurrent_ends h
  rw [hsame]
  exact Rooms.notesValid_leave hn ho hl h₁

theorem notesValid_closeRoom {ref : RoomRef} {x : Unit} (hn : w.hub.Numbered n)
    (hl : w.hub.NotesValid)
    (h : (closeRoom ref).Ends w x w') : w'.hub.NotesValid := by
  obtain ⟨closed, w₁, h₁, h⟩ := ends_bind.mp h
  have hclosed := Rooms.notesValid_remove hn hl h₁
  suffices w'.hub = w₁.hub by rwa [this]
  cases closed with
  | error e => exact (calm_done _).ends h
  | ok members => exact ((calm_notify _ _).bind fun _ => calm_done _).ends h

end RoomNews

namespace Session

variable {s : Session} {p : ClientPacket} {x : Except Refusal Unit}

theorem notesValid_handle (hn : w.hub.Numbered n) (ho : w.hub.AllOpen)
    (hfew : n + (p.takesId x).toNat ≤ UInt32.size) (hl : w.hub.NotesValid)
    (h : (s.handle p).Ends w x w') : w'.hub.NotesValid := by
  generalize hdeed : w'.hub = h'
  cases hdeed ▸ deed_handle hn h with
  | own => exact hl.of_rooms rfl rfl rfl
  | refused => exact hl
  | changed hplace hchanged =>
    exact hl.of_seats rfl rfl (Hub.sameSeats_setRoom hchanged.ids).ids
  | created hasks h₁ =>
    refine Rooms.notesValid_create hn (fun ref hx => ?_) hl h₁
    have htaken : p.takesId (answer (.ok ref)) = true := by
      simp only [ClientPacket.takesId, hasks, answer, Bool.and_true]
    rw [hx, htaken] at hfew
    exact hfew
  | joined h₁ => exact Rooms.notesValid_join hn hl h₁
  | left h₁ => exact Rooms.notesValid_leave hn ho hl h₁
  | closed _ h₁ => exact Rooms.notesValid_remove hn hl h₁

theorem notesValid_dispatch (hn : w.hub.Numbered n) (ho : w.hub.AllOpen)
    (hfew : n + (p.takesId x).toNat ≤ UInt32.size) (hl : w.hub.NotesValid)
    (h : (s.dispatch p).Ends w x w') : w'.hub.NotesValid := by
  obtain ⟨w₁, h₁, hsame⟩ := handle_of_dispatch h
  rw [hsame]
  exact notesValid_handle hn ho hfew hl h₁

end Session

end Tasks

/-! ## Users come online and go -/

section Presence

variable {n : Nat} {w w' : World} {es : List Effect}

theorem notesValid_disconnect {token : String} {x : Unit} {m : Nat}
    (hd : w.hub.directory.Coherent) (hm : w.hub.Numbered m) (ho : w.hub.AllOpen)
    (hl : w.hub.NotesValid) (h : (disconnect token).Does w x w' es) : w'.hub.NotesValid := by
  rcases disconnect_does hd h with
    ⟨-, rfl, -⟩ | ⟨s, d, y, w₁, es₁, es₂, -, -, hleave, hhub, -, -⟩
  · exact hl
  · let h₀ : Hub := ({ w.hub with directory := d }).modifyState s fun state =>
      { state with retired := true }
    have hsame : w.hub.SameRooms h₀ := ⟨rfl, rfl, rfl⟩
    rw [hhub]
    exact RoomNews.notesValid_leaveCurrent (w := { w with hub := h₀ }) (hsame.numbered hm)
      (hsame.allOpen ho) (hl.of_rooms rfl rfl rfl) hleave.ends

theorem notesValid_login {profile : Profile} {token : String} {line : Nat}
    {x : Except RegistryError Session} {m : Nat} (hd : w.hub.directory.Coherent)
    (hm : w.hub.Numbered m) (ho : w.hub.AllOpen) (hl : w.hub.NotesValid)
    (h : (login profile token line).Does w x w' es) : w'.hub.NotesValid := by
  rcases login_does hd h with
    ⟨-, -, rfl⟩ | ⟨s, d, w₁, es₁, es₂, -, rfl, hentered, hgreet, -, hold⟩
  · exact hl.of_rooms rfl rfl rfl
  rw [(Session.greet_does hgreet).2.1]
  cases hu : w.hub.directory.ofUser s.id with
  | none =>
    rw [hu] at hold
    obtain ⟨rfl, -⟩ := hold
    exact hl.of_rooms rfl rfl rfl
  | some old =>
    rw [hu] at hold
    obtain ⟨w₀, es₀, hhub, -, -, hgone, -⟩ := hold
    have hsame : w.hub.SameRooms w₀.hub := hhub ▸ ⟨rfl, rfl, rfl⟩
    have hd₀ : w₀.hub.directory.Coherent := hhub ▸ hd.entered hentered
    have hl₀ : w₀.hub.NotesValid := hhub ▸ hl.of_rooms rfl rfl rfl
    exact notesValid_disconnect hd₀ (hsame.numbered hm) (hsame.allOpen ho) hl₀ hgone

theorem notesValid_shutdown {x : Unit} {known : Session → Prop} (hw : w.Kept known n)
    (hl : w.hub.NotesValid) (h : shutdown.Ends w x w') : w'.hub.NotesValid := by
  have hkept : shutdown.Takes (fun v => v.Kept known n ∧ v.hub.NotesValid)
      fun _ v => v.Kept known n ∧ v.hub.NotesValid := by
    refine takes_bind (takes_bind (takes_read fun _ hv => hv) fun refs =>
      takes_each (fun ref => ?_) refs) fun _ =>
        takes_bind (takes_read fun _ hv => hv) fun sessions => takes_each (fun s => ?_) sessions
    · intro v y v' hboth hclose
      obtain ⟨hk, hl⟩ := hboth
      obtain ⟨m, -, hb, -⟩ := hk.rooms
      exact ⟨takes_kept_of_room (RoomNews.roomTask_closeRoom ref) hk hclose,
        RoomNews.notesValid_closeRoom hb.numbered hl hclose⟩
    · refine takes_bind (Q := fun _ v => v.Kept known n ∧ v.hub.NotesValid) ?_ fun _ => ?_
      · intro v y v' hboth hsend
        obtain ⟨hk, hl⟩ := hboth
        refine ⟨takes_kept_of_silent (s.silent_send _) hk hsend, ?_⟩
        rw [(calm_emit _).ends hsend]
        exact hl
      · intro v y v' hboth hgo
        obtain ⟨hk, hl⟩ := hboth
        obtain ⟨m, -, hb, ho⟩ := hk.rooms
        obtain ⟨es, hdoes⟩ := hgo.does
        exact ⟨takes_disconnect s.token hk hgo,
          notesValid_disconnect hk.sessions.orderly.coherent hb.numbered ho hl hdoes⟩
  exact (hkept ⟨hw, hl⟩ h).2

end Presence

/-! ## All acts -/

/-- as long as no id is given away twice, no act gives anybody a note that leads nowhere -/
theorem Act.notesValid {act : Act} {o : Outcome} {known : List Session} {n : Nat} {w w' : World}
    {es : List Effect} (h : act.task.Does w o w' es) (hw : w.Kept (· ∈ known) n)
    (hfew : n + (act.takesId o).toNat ≤ UInt32.size) (hl : w.hub.NotesValid) :
      w'.hub.NotesValid := by
  have hcoherent := hw.sessions.orderly.coherent
  obtain ⟨m, hm, hb, ho⟩ := hw.rooms
  have hdoes := act.does h
  cases act with
  | login profile token line =>
    obtain ⟨x, -, hlogin⟩ := hdoes
    exact notesValid_login hcoherent hb.numbered ho hl hlogin
  | packet s p =>
    obtain ⟨x, rfl, hpacket⟩ := hdoes
    have hids : m + (p.takesId x).toNat ≤ UInt32.size :=
      Nat.le_trans (Nat.add_le_add_right hm _) hfew
    exact Session.notesValid_dispatch hb.numbered ho hids hl hpacket.ends
  | disconnect token => exact notesValid_disconnect hcoherent hb.numbered ho hl hdoes.2
  | shutdown => exact notesValid_shutdown hw hl hdoes.2.ends
  | elapse clock database =>
    obtain ⟨-, rfl, -⟩ := hdoes
    exact hl.of_rooms rfl rfl rfl

/-- After any acts on a server that has just started, whoever is noted to be in a room is a member
of it, as long as at most `2 ^ 32` ids have been given away. -/
theorem Course.notesValid {database : Database} {timeouts : Timeouts} {flood : FloodLimits}
    {clock : Int64} {past : List Act} {outcomes : List Outcome} {w : World}
    (h : Course Act.OfKnown .none (.start (.start database timeouts flood clock)) past outcomes w)
    (hfew : idsGiven past outcomes ≤ UInt32.size) : w.hub.NotesValid := by
  induction h using Course.induction with
  | nil => exact nofun
  | snoc hpast hmay hgo ih =>
    rw [idsGiven_snoc hpast.length_eq] at hfew
    exact Act.notesValid hgo.alone hpast.kept hfew (ih (Nat.le_trans (Nat.le_add_right _ _) hfew))

end RhythmLobby
