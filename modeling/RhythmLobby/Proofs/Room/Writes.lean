import RhythmLobby.Proofs.Room.Footprint
import RhythmLobby.Proofs.Room.Slots

/-!
# Writes of the records of a room

Where nobody else is at work, every write of a record settles at once.

* `World.Recorded`      what some updates have made of a world;
* `recorded_writeListing`, `recorded_writePlayer`, `recorded_publish`   the writes;
* `RoomRef.Brings`      updates that bring the records of a room up to date;
* `PlayerChange.brings` to `brings_of_closed`   the updates that follow each kind of change.
-/

namespace RhythmLobby
open Cache

/-! ## Updates one after another -/

/-- what some updates leave under a key that held `r` -/
def Cache.Update.leaveAll (us : List Update) (key : String) (r : Option Record) : Option Record :=
  us.foldl (fun r u => u.call.leaves key r) r

namespace World

/-- `w'` is what some updates have made of `w`, as far as memory and records go -/
structure Recorded (w : World) (us : List Update) (w' : World) : Prop where
  hub : w'.hub = w.hub
  reliable : w'.Reliable
  record : ∀ key, w'.record key = Update.leaveAll us key (w.record key)

variable {w w₁ w' : World} {us vs : List Update}

theorem recorded_refl (hw : w.Reliable) : w.Recorded [] w := ⟨rfl, hw, fun _ => rfl⟩

theorem recorded_update (hw : w.Reliable) (u : Update) : w.Recorded [u] (w.update u) :=
  ⟨w.update_hub u, reliable_update hw u, fun key => record_update hw u key⟩

theorem Recorded.trans (h₁ : w.Recorded us w₁) (h₂ : w₁.Recorded vs w') :
    w.Recorded (us ++ vs) w' := by
  refine ⟨h₂.hub.trans h₁.hub, h₂.reliable, fun key => ?_⟩
  rw [h₂.record, h₁.record, Update.leaveAll, Update.leaveAll, Update.leaveAll, List.foldl_append]

theorem recorded_each {α : Type} {f : α → Routine Unit} {u : α → Update} {xs : List α} {x : Unit}
    (hf : ∀ a ∈ xs, ∀ v v' y, v.hub = w.hub → v.Reliable → (f a).Ends v y v' →
      v.Recorded [u a] v') (hw : w.Reliable) (h : (Routine.each f xs).Ends w x w') :
    w.Recorded (xs.map u) w' := by
  induction xs generalizing w with
  | nil =>
    obtain ⟨-, rfl⟩ := Routine.ends_done.mp h
    exact recorded_refl hw
  | cons a xs ih =>
    obtain ⟨y, w₁, h₁, h⟩ := Routine.ends_bind.mp h
    have h₁ := hf a (List.mem_cons_self ..) w w₁ y rfl hw h₁
    refine h₁.trans (ih (fun b hb v v' y hv => ?_) h₁.reliable h)
    exact hf b (List.mem_cons_of_mem _ hb) v v' y (hv.trans h₁.hub)

theorem Recorded.silent {α : Type} {r : Routine α} {x : α} (h : w.Recorded us w₁)
    (hr : r.Silent) (he : r.Ends w₁ x w') : w.Recorded us w' := by
  obtain ⟨hhub, hcache⟩ := hr.ends he
  refine ⟨hhub.trans h.hub, fun n => ?_, fun key => ?_⟩
  · rw [hcache, h.reliable]
  · rw [← h.record key, World.record, hcache, World.record]

end World

/-- the updates that write the listing and all members of a room -/
def Room.published (room : Int32) (r : Room) : List Update :=
  .listing room r.listing :: r.members.map fun m => .player room m.record

/-! ## Writes that settle at once -/

namespace RoomRef

variable {ref : RoomRef} {w w' : World} {x : Unit}

/-- the listing is that of the room, so that another write of it would change nothing -/
theorem recorded_writeListing {l : Listing} (hw : w.Reliable)
    (hl : (w.hub.room ref).liveListing = some l) (h : (ref.writeListing l).Ends w x w') :
    w.Recorded [.listing ref.id l] w' := by
  obtain ⟨_, w₁, h₁, h⟩ := Routine.ends_bind.mp h
  rw [Routine.ends_update] at h₁
  subst h₁
  refine Routine.takes_settling (P := fun v => v = w.update (.listing ref.id l))
    (J := fun found v => found = some l ∧ w.Recorded [.listing ref.id l] v)
    (Q := fun _ v => w.Recorded [.listing ref.id l] v) ?_ ?_ rfl h
  · intro _ heq
    subst heq
    exact ⟨rfl, World.recorded_update hw _⟩
  · intro _ v hboth
    obtain ⟨rfl, hv⟩ := hboth
    rw [listingTurn, hv.hub, hl]
    by_cases hs : sameListing (some l) (some l) = true
    · simp only [hs, if_true]
      exact hv
    · simp only [hs]
      refine ⟨rfl, (World.update_hub _ _).trans hv.hub,
        World.reliable_update hv.reliable _, fun key => ?_⟩
      rw [World.record_update hv.reliable, hv.record]
      simp only [Update.leaveAll, List.foldl_cons, List.foldl_nil, Update.listing, Call.leaves]
      split <;> rfl

theorem recorded_writePlayer {p : PlayerRecord} (hw : w.Reliable)
    (hp : (w.hub.room ref).liveRecord p.profile.userId = some p)
    (h : (ref.writePlayer p).Ends w x w') : w.Recorded [.player ref.id p] w' := by
  obtain ⟨_, w₁, h₁, h⟩ := Routine.ends_bind.mp h
  rw [Routine.ends_update] at h₁
  subst h₁
  have hstop : ref.playerTurn p.profile.userId (some p) (w.update (.player ref.id p)).hub =
      .stop () := by
    rw [playerTurn, World.update_hub, hp]
    exact if_pos rfl
  obtain ⟨-, rfl⟩ := (Routine.ends_settling_of_stop hstop).mp h
  exact World.recorded_update hw _

/-- a member that is gone needs no more than one deletion -/
theorem ends_settlePlayer_none {user : Int32} (hn : (w.hub.room ref).liveRecord user = none)
    (h : (ref.settlePlayer user none).Ends w x w') : w' = w := by
  have hstop : ref.playerTurn user none w.hub = .stop () := by
    rw [playerTurn, hn]
    exact if_pos rfl
  exact ((Routine.ends_settling_of_stop hstop).mp h).2

theorem recorded_publish (hw : w.Reliable) (ho : (w.hub.room ref).closed = false)
    (hn : (w.hub.room ref).ids.Nodup) (h : ref.publish.Ends w x w') :
    w.Recorded (Room.published ref.id (w.hub.room ref)) w' := by
  obtain ⟨_, _, h₀, h⟩ := Routine.ends_bind.mp h
  obtain ⟨rfl, rfl⟩ := Routine.ends_read.mp h₀
  obtain ⟨_, w₁, h₁, h⟩ := Routine.ends_bind.mp h
  have h₁ := recorded_writeListing hw (Room.liveListing_of_open ho) h₁
  apply h₁.trans
  rw [← Function.comp_def (f := Update.player ref.id), ← List.map_map]
  refine World.recorded_each (fun p hp v v' y hv hreliable he => ?_) h₁.reliable h
  refine recorded_writePlayer hreliable ?_ he
  obtain ⟨m, hm, rfl⟩ := List.mem_map.mp hp
  rw [hv, h₁.hub, Room.liveRecord_of_open ho]
  exact Room.record_of_mem hn hm

end RoomRef

/-! ## Updates that follow a change of a room -/

/-- from the records of one state of a room, these updates make those of another one -/
structure RoomRef.Brings (ref : RoomRef) (us : List Update) (r r' : Room) : Prop where
  others : ∀ (k : Key) (x : Option Record), k ≠ .room ref.id → (∀ user, k ≠ .player ref.id user) →
    Update.leaveAll us k.text x = x
  listing : Update.leaveAll us (Key.room ref.id).text (r.liveListing.map .listing) =
    r'.liveListing.map .listing
  player : ∀ user,
    (∀ x, Update.leaveAll us (Key.player ref.id user).text x = (r'.liveRecord user).map .player) ∨
    (r'.liveRecord user = r.liveRecord user ∧
      ∀ x, Update.leaveAll us (Key.player ref.id user).text x = x)

namespace Room

variable {ref : RoomRef} {r r' : Room}

theorem PlayerChange.brings {user : Int32} {record : PlayerRecord}
    (h : r.PlayerChange user record r') : ref.Brings [.player ref.id record] r r' where
  others k x _ hk := (Update.leaves_player k x ref.id record).trans (if_neg (hk _))
  listing := by
    rw [h.liveListing]
    exact (Update.leaves_player _ _ ref.id record).trans (if_neg (by simp))
  player v := by
    by_cases hv : v = user
    · subst hv
      left
      intro x
      rw [liveRecord_of_open h.isOpen, h.record]
      exact (Update.leaves_player _ x ref.id record).trans (if_pos (by rw [h.owner]))
    · refine .inr ⟨h.liveRecord_of_ne hv, fun x => ?_⟩
      refine (Update.leaves_player _ x ref.id record).trans (if_neg fun heq => hv ?_)
      rw [h.owner] at heq
      cases heq
      rfl

theorem ListingChange.brings (h : r.ListingChange r') :
    ref.Brings [.listing ref.id r'.listing] r r' where
  others k x hk _ := (Update.leaves_listing k x ref.id r'.listing).trans (if_neg hk)
  listing := by
    rw [liveListing_of_open h.isOpen]
    exact (Update.leaves_listing _ _ ref.id r'.listing).trans (if_pos rfl)
  player user := .inr ⟨h.liveRecord user, fun x =>
    (Update.leaves_listing _ x ref.id r'.listing).trans (if_neg (by simp))⟩

/-! All members are written. -/

theorem leaveAll_players_other {room : Int32} {k : Key} (hk : ∀ user, k ≠ .player room user)
    (members : List Member) (x : Option Record) :
    Update.leaveAll (members.map fun m => .player room m.record) k.text x = x := by
  induction members generalizing x with
  | nil => rfl
  | cons m rest ih =>
    apply (ih _).trans
    exact (Update.leaves_player k x room m.record).trans (if_neg (hk _))

theorem leaveAll_players {room : Int32} (user : Int32) {members : List Member}
    (hn : (members.map Member.id).Nodup) (x : Option Record) :
    Update.leaveAll (members.map fun m => .player room m.record) (Key.player room user).text x =
      ((members.find? (·.id = user)).map fun m => .player m.record).or x := by
  induction members generalizing x with
  | nil => rfl
  | cons m rest ih =>
    rw [List.map_cons, List.nodup_cons] at hn
    apply (ih hn.2 _).trans
    have hm := Update.leaves_player (.player room user) x room m.record
    by_cases hu : m.id = user
    · subst hu
      rw [List.find?_cons_of_pos (by simp), List.find?_eq_none.mpr]
      · exact hm.trans (if_pos rfl)
      · intro m' hm' heq
        exact hn.1 (List.mem_map.mpr ⟨m', hm', by simpa using heq⟩)
    · rw [List.find?_cons_of_neg (by simpa using hu)]
      congr 1
      refine hm.trans (if_neg fun heq => hu ?_)
      cases heq
      rfl

theorem leaveAll_published_other {room : Int32} {k : Key} (hk : k ≠ .room room)
    (hp : ∀ user, k ≠ .player room user) (r : Room) (x : Option Record) :
    Update.leaveAll (published room r) k.text x = x := by
  apply (leaveAll_players_other hp r.members _).trans
  exact (Update.leaves_listing k x room r.listing).trans (if_neg hk)

theorem leaveAll_published_listing (room : Int32) (hopen : r.closed = false)
    (x : Option Record) : Update.leaveAll (published room r) (Key.room room).text x =
      r.liveListing.map .listing := by
  rw [liveListing_of_open hopen]
  refine (leaveAll_players_other (fun _ heq => by cases heq) r.members _).trans ?_
  exact (Update.leaves_listing _ _ room r.listing).trans (if_pos rfl)

theorem leaveAll_published_player (room user : Int32) (hopen : r.closed = false)
    (hn : r.ids.Nodup) (x : Option Record) :
    Update.leaveAll (published room r) (Key.player room user).text x =
      ((r.liveRecord user).map .player).or x := by
  apply (leaveAll_players user hn _).trans
  rw [liveRecord_of_open hopen, record, member?, Option.map_map]
  congr 1
  exact (Update.leaves_listing _ x room r.listing).trans (if_neg (by simp))

theorem Reset.brings (h : r.Reset r') (hn : r'.ids.Nodup) :
    ref.Brings (published ref.id r') r r' where
  others k x hk hp := leaveAll_published_other hk hp r' x
  listing := leaveAll_published_listing ref.id h.isOpen _
  player user := by
    have hleaves := leaveAll_published_player ref.id user h.isOpen hn
    cases hr : r'.liveRecord user with
    | none =>
      refine .inr ⟨(h.liveRecord_eq_none hr).symm, fun x => ?_⟩
      rw [hleaves, hr]
      rfl
    | some record =>
      left
      intro x
      rw [hleaves, hr]
      rfl

/-! Members go. -/

theorem brings_of_left {user : Int32} (hopen : r.closed = false) :
    ref.Brings [.noPlayer ref.id user] r (r.without user) where
  others k x _ hk := (Update.leaves_noPlayer k x ref.id user).trans (if_neg (hk _))
  listing := by
    have hlisting : (r.without user).liveListing = r.liveListing := rfl
    rw [hlisting]
    exact (Update.leaves_noPlayer _ _ ref.id user).trans (if_neg (by simp))
  player v := by
    have hopen' : (r.without user).closed = false := hopen
    rw [liveRecord_of_open hopen, liveRecord_of_open hopen', record_without]
    by_cases hv : v = user
    · subst hv
      rw [if_pos rfl]
      exact .inl fun x => (Update.leaves_noPlayer _ x ref.id v).trans (if_pos rfl)
    · refine .inr ⟨if_neg hv, fun x => ?_⟩
      refine (Update.leaves_noPlayer _ x ref.id user).trans (if_neg fun heq => hv ?_)
      cases heq
      rfl

theorem brings_of_closed {members : List Int32} (hclosed : r'.closed = true)
    (hmembers : ∀ user ∈ r.ids, user ∈ members) :
    ref.Brings [.noRoom ref.id members] r r' where
  others k x hroom hplayer := by
    refine (Update.leaves_noRoom k x ref.id members).trans (if_neg ?_)
    rintro (h | ⟨user, -, h⟩)
    · exact hroom h
    · exact hplayer user h.symm
  listing := by
    rw [liveListing_of_closed hclosed]
    exact (Update.leaves_noRoom _ _ ref.id members).trans (if_pos (.inl rfl))
  player user := by
    rw [liveRecord_of_closed hclosed]
    by_cases hu : user ∈ members
    · exact .inl fun x =>
        (Update.leaves_noRoom _ x ref.id members).trans (if_pos (.inr ⟨user, hu, rfl⟩))
    · refine .inr ⟨(liveRecord_of_notMem fun h => hu (hmembers user h)).symm, fun x => ?_⟩
      refine (Update.leaves_noRoom _ x ref.id members).trans (if_neg ?_)
      rintro (h | ⟨v, hv, h⟩)
      · cases h
      · cases h
        exact hu hv

end Room

theorem RoomRef.Brings.trans {ref : RoomRef} {us vs : List Update} {r r₁ r' : Room}
    (h₁ : ref.Brings us r r₁) (h₂ : ref.Brings vs r₁ r') : ref.Brings (us ++ vs) r r' := by
  have happend : ∀ key x, Update.leaveAll (us ++ vs) key x =
      Update.leaveAll vs key (Update.leaveAll us key x) := fun _ _ => List.foldl_append
  refine ⟨fun k x hroom hplayer => ?_, ?_, fun user => ?_⟩
  · rw [happend, h₁.others k x hroom hplayer, h₂.others k x hroom hplayer]
  · rw [happend, h₁.listing, h₂.listing]
  · rcases h₂.player user with h₂ | ⟨hsame₂, h₂⟩
    · exact .inl fun x => by rw [happend, h₂]
    · rw [hsame₂]
      rcases h₁.player user with h₁ | ⟨hsame₁, h₁⟩
      · exact .inl fun x => by rw [happend, h₂, h₁]
      · exact .inr ⟨hsame₁, fun x => by rw [happend, h₂, h₁]⟩

end RhythmLobby
