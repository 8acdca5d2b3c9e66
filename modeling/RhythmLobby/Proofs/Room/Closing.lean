import RhythmLobby.Proofs.Room.Following

/-!
# All rooms are closed

The rooms that are open are listed once, and then closed one after another.

* `World.InOrder`                  books, lines and places are right;
* `Hub.Closes`                     nothing happens but that rooms close, and their members are told;
* `RoomNews.closes_closeRoom`      one room;
* `RoomNews.closes_closeAll`       all of them, after which none is left.
-/

namespace RhythmLobby
open Routine

/-! ## Memory in order -/

/-- Books, lines and places are right. -/
structure World.InOrder (known : List Session) (n : Nat) (astray : Int32 → Prop) (w : World) :
    Prop where
  kept : w.Kept (· ∈ known) n
  lined : w.hub.Lined known
  placed : w.hub.Placed astray

namespace World.InOrder

variable {known : List Session} {n : Nat} {astray : Int32 → Prop} {w w' : World}
  {es : List Effect}

theorem wellFormed (hw : w.InOrder known n astray) : w.hub.WellFormed := hw.kept.wellFormed hw.lined
    hw.placed

theorem congr (hhub : w'.hub = w.hub) (hcache : w'.cache = w.cache)
    (hw : w.InOrder known n astray) : w'.InOrder known n astray :=
  ⟨⟨hw.kept.sessions.congr hhub hcache, hw.kept.rooms.congr hhub hcache⟩, hhub ▸ hw.lined,
    hhub ▸ hw.placed⟩

theorem silent {α : Type} {r : Routine α} {x : α} (hw : w.InOrder known n astray)
    (hr : r.Silent) (h : r.Does w x w' es) : w'.InOrder known n astray :=
  hw.congr (hr.ends h.ends).1 (hr.ends h.ends).2

theorem closeRoom {ref : RoomRef} {x : Unit} (hw : w.InOrder known n astray)
    (h : (RoomNews.closeRoom ref).Does w x w' es) : w'.InOrder known n astray := by
  have hparts : w.hub.Parts known es w'.hub := (RoomNews.discreet_closeRoom ref).parts h
  exact {
    kept := takes_kept_of_room (RoomNews.roomTask_closeRoom ref) hw.kept h.ends
    lined := hw.lined.fewer hparts.fewer
    placed := (hw.placed.fewer (RoomNews.fewer_closeRoom hw.kept.rooms hw.placed h.ends)).mono
      fun _ hv => .inr hv.1 }

theorem disconnect {token : String} {x : Unit} (hw : w.InOrder known n astray)
    (h : (RhythmLobby.disconnect token).Does w x w' es) : w'.InOrder known n astray where
  kept := takes_disconnect token hw.kept h.ends
  lined := hw.lined.fewer (parts_disconnect hw.kept.sessions.orderly hw.lined h).fewer
  placed := placed_disconnect hw.kept.rooms hw.kept.sessions.orderly.coherent hw.placed h.ends

end World.InOrder

/-! ## Nobody opposes -/

theorem Room.close_of_open {r : Room} (ho : r.closed = false) :
    r.close none = .ok (r.ids, { r with members := [], closed := true }) := by
  unfold close checkOpen
  rw [ho]
  rfl

theorem RoomRef.close_of_open {ref : RoomRef} {w w' : World} {x : Except RoomError (List Int32)}
    (ho : (w.hub.room ref).closed = false) (h : (ref.close none).Ends w x w') :
    x = .ok (w.hub.room ref).ids := by
  obtain ⟨y, w₁, h₁, hrest⟩ := ends_bind.mp h
  obtain ⟨hy, -⟩ := ends_transact.mp h₁
  simp only [Room.close_of_open ho] at hy
  subst hy
  obtain ⟨_, w₂, -, hdone⟩ := ends_bind.mp hrest
  exact (ends_done.mp hdone).1

/-- a room that can be found is closed if nobody in particular asks for it -/
theorem Rooms.remove_of_open {room : Int32} {w w' : World} {x : Except RoomError (List Int32)}
    {ref : RoomRef} (ho : w.hub.AllOpen) (hr : w.hub.openRooms.get? room = some ref)
    (h : (remove room none).Ends w x w') : x = .ok (w.hub.room ref).ids := by
  obtain ⟨found, w₁, h₁, h⟩ := ends_bind.mp h
  obtain ⟨hfound, rfl⟩ := ends_read.mp h₁
  replace hfound : w₁.hub.openRooms.get? room = found := hfound.symm
  rw [hr] at hfound
  subst hfound
  obtain ⟨closed, w₂, h₂, h⟩ := ends_bind.mp h
  have hclosed := RoomRef.close_of_open (ho hr) h₂
  subst hclosed
  obtain ⟨_, w₃, -, h⟩ := ends_bind.mp h
  obtain ⟨_, w₄, -, h⟩ := ends_bind.mp h
  obtain ⟨_, w₅, -, h⟩ := ends_bind.mp h
  exact (ends_done.mp h).1

/-! ## Rooms close -/

/-- Nobody comes online or goes, the rooms that are left are as they were, and whoever is found
hears of rooms that close and of nothing else.  The members of a room that closes hear of it. -/
structure Hub.Closes (h : Hub) (es : List Effect) (h' : Hub) : Prop where
  directory : h'.directory = h.directory
  left : ∀ {id ref}, h'.openRooms.get? id = some ref →
    h.openRooms.get? id = some ref ∧ h'.room ref = h.room ref
  only : ∀ {s}, h.Finds s → ∀ event ∈ heardAt s.line es, ∃ id, event = .frame (.roomClosed id)
  told : ∀ {s id ref}, h.Finds s → h.openRooms.get? id = some ref → s.id ∈ (h.room ref).ids →
    h'.openRooms.get? id = none → .frame (.roomClosed id) ∈ heardAt s.line es

namespace Hub

variable {h h' : Hub} {es : List Effect}

theorem closes_of_same (hsame : h' = h) (hheard : ∀ n, heardAt n es = []) : h.Closes es h' := by
  subst hsame
  refine ⟨rfl, fun hr => ⟨hr, rfl⟩, fun {s} _ event hevent => ?_, fun _ hr _ hnone => ?_⟩
  · rw [hheard] at hevent
    cases hevent
  · rw [hr] at hnone
    cases hnone

theorem chained_closes : Chained Closes where
  nothing h := closes_of_same rfl fun _ => rfl
  after {h h₁ h₂ es es'} hc hc' := by
    have hfinds : ∀ {s}, h.Finds s → h₁.Finds s := (finds_congr hc.directory).mpr
    refine ⟨hc'.directory.trans hc.directory, fun hr => ?_, fun {s} hs event hevent => ?_,
      fun {s id ref} hs hr hmem hnone => ?_⟩
    · obtain ⟨hr₁, hroom₁⟩ := hc'.left hr
      obtain ⟨hr, hroom⟩ := hc.left hr₁
      exact ⟨hr, hroom₁.trans hroom⟩
    · rw [heardAt_append, List.mem_append] at hevent
      exact hevent.elim (hc.only hs event) (hc'.only (hfinds hs) event)
    · rw [heardAt_append, List.mem_append]
      cases hr₁ : h₁.openRooms.get? id with
      | none => exact .inl (hc.told hs hr hmem hr₁)
      | some ref₁ =>
        obtain ⟨hsame, hroom⟩ := hc.left hr₁
        rw [hr] at hsame
        cases hsame
        exact .inr (hc'.told (hfinds hs) hr₁ (hroom ▸ hmem) hnone)

theorem Closes.gone (hc : h.Closes es h') {id : Int32} (hnone : h.openRooms.get? id = none) :
    h'.openRooms.get? id = none := by
  refine Option.eq_none_iff_forall_ne_some.mpr fun ref hr => ?_
  rw [(hc.left hr).1] at hnone
  cases hnone

end Hub

namespace RoomNews

variable {known : List Session} {n : Nat} {astray : Int32 → Prop} {w w' : World} {x : Unit}
  {es : List Effect}

theorem closes_closeRoom {ref : RoomRef} (ht : w.hub.WellFormed)
    (h : (closeRoom ref).Does w x w' es) :
    w.hub.Closes es w'.hub ∧ w'.hub.openRooms.get? ref.id = none := by
  obtain ⟨es₁, es₂, rfl, closed, w₁, h₁, h₂⟩ := does_bind h
  have hmute := ((Rooms.mute_remove ref.id none).does h₁).2
  rcases Rooms.remove_ends h₁.ends with
    ⟨e, rfl, hhub⟩ | ⟨found, members, r', hr, hclose, rfl, hhub⟩
  · obtain ⟨-, rfl, rfl⟩ := does_done h₂
    rw [List.append_nil]
    refine ⟨Hub.closes_of_same hhub hmute, ?_⟩
    rw [hhub]
    refine Option.eq_none_iff_forall_ne_some.mpr fun found hr => ?_
    cases Rooms.remove_of_open ht.allOpen hr h₁.ends
  obtain ⟨_, -, hnotify⟩ := does_answer h₂
  obtain ⟨hsame, rfl⟩ := notify_does hnotify
  obtain ⟨-, rfl, -⟩ := Room.close_ok hclose
  have hnamed : found.id = ref.id := ht.named hr
  have hlisted : w.hub.openRooms.get? found.id = some found := hnamed ▸ hr
  obtain ⟨hreleased, hdirectory⟩ := Rooms.sameRooms_releaseAll (w.hub.room found).ids ref.id
    (Rooms.drop ref.id (w.hub.setRoom found r'))
  have htouched : w.hub.Touched found w₁.hub := by
    rw [hhub]
    exact ((ht.touched_setRoom hlisted r').drop ref.id).sameRooms hreleased hdirectory
  have hlist : ∀ id, w₁.hub.openRooms.get? id =
      if ref.id = id then none else w.hub.openRooms.get? id := by
    intro id
    rw [hhub, hreleased.openRooms]
    exact Table.get?_erase _ _ _
  have hheard : ∀ s, w.hub.Finds s → heardAt s.line (es₁ ++ [.fanOut (.roomClosed ref.id)
      (w₁.hub.sessionsOf (w.hub.room found).ids)]) =
        if s.id ∈ (w.hub.room found).ids then [.frame (.roomClosed ref.id)] else [] := by
    intro s hs
    rw [heardAt_append, hmute, List.nil_append]
    exact ht.heard_users htouched.directory hs (ht.members hr) _
  rw [hsame]
  refine ⟨⟨htouched.directory, fun {id ref'} hr' => htouched.others hr' ?_,
    fun {s} hs event hevent => ?_, fun {s id ref'} hs hr' hmem hnone => ?_⟩,
    (hlist _).trans (if_pos rfl)⟩
  · intro heq
    subst heq
    have hr₀ := (hlist id).symm.trans hr'
    split at hr₀
    · cases hr₀
    · exact absurd (hnamed.symm.trans (ht.named hr₀)) ‹_›
  · rw [hheard s hs] at hevent
    split at hevent
    · exact ⟨ref.id, List.mem_singleton.mp hevent⟩
    · cases hevent
  · -- no other room has closed
    have hid : ref.id = id := by
      refine Classical.not_not.mp fun hne => ?_
      rw [hlist, if_neg hne, hr'] at hnone
      cases hnone
    subst hid
    rw [hr] at hr'
    cases hr'
    rw [hheard s hs, if_pos hmem]
    exact List.mem_singleton_self _

theorem closes_each (refs : List RoomRef) (hw : w.InOrder known n astray)
    (h : (each closeRoom refs).Does w x w' es) : w'.InOrder known n astray ∧
      w.hub.Closes es w'.hub ∧ ∀ ref ∈ refs, w'.hub.openRooms.get? ref.id = none := by
  induction refs generalizing w es with
  | nil =>
    obtain ⟨-, rfl, rfl⟩ := does_done h
    exact ⟨hw, Hub.chained_closes.nothing _, nofun⟩
  | cons ref refs ih =>
    obtain ⟨es₁, es₂, rfl, _, w₁, h₁, h₂⟩ := does_bind h
    obtain ⟨hcloses, hgone⟩ := closes_closeRoom hw.wellFormed h₁
    obtain ⟨hw', hcloses', hgone'⟩ := ih (hw.closeRoom h₁) h₂
    refine ⟨hw', Hub.chained_closes.after hcloses hcloses', fun ref' href' => ?_⟩
    rcases List.mem_cons.mp href' with rfl | href'
    · exact hcloses'.gone hgone
    · exact hgone' ref' href'

theorem closes_closeAll (hw : w.InOrder known n astray) (h : closeAll.Does w x w' es) :
    w'.InOrder known n astray ∧ w.hub.Closes es w'.hub ∧
      ∀ id, w'.hub.openRooms.get? id = none := by
  obtain ⟨hw', hcloses, hgone⟩ := closes_each _ hw (does_read_bind h)
  refine ⟨hw', hcloses, fun id => Option.eq_none_iff_forall_ne_some.mpr fun ref hr => ?_⟩
  have hr₀ := (hcloses.left hr).1
  have hnone := hgone ref (Table.mem_values hr₀)
  rw [hw.wellFormed.named hr₀, hr] at hnone
  cases hnone

end RoomNews
end RhythmLobby
