import RhythmLobby.Proofs.Hub.Slot
import RhythmLobby.Proofs.Room.Changes
import RhythmLobby.Task.RoomMoves

/-!
# The records of one room

Each record of a room is a slot, which shows the listing or one of the members of the room.

* `RoomRef.listingSlot`, `RoomRef.playerSlot`   the slots;
* `keeps_change`                                a change of the room at one moment;
* `listingTurn_cases`, `playerTurn_cases`       one round of a settling loop;
* `clears_writeListing`, `keeps_writePlayer`    a write and its settling do any duty;
* `listing_clears_publish`, `player_clears_publish`   and so does `publish`;
* `listing_clears_noRoom`, `player_clears_noRoom`     the deletion of all records.
-/

namespace RhythmLobby
open Cache

/-! ## Rooms in memory -/

theorem Hub.room_setRoom {h : Hub} {ref : RoomRef} (hr : ref.key < h.rooms.length) (r : Room) :
    (h.setRoom ref r).room ref = r := by
  simp [room, setRoom, hr]

theorem Hub.made_of_open {h : Hub} {ref : RoomRef} (hopen : (h.room ref).closed = false) :
    ref.key < h.rooms.length := by
  refine Nat.lt_of_not_le fun hout => ?_
  rw [room, List.getElem?_eq_none hout] at hopen
  cases hopen

theorem Hub.length_setRoom (h : Hub) (ref : RoomRef) (r : Room) :
    (h.setRoom ref r).rooms.length = h.rooms.length := List.length_set

theorem Hub.setRoom_setRoom (h : Hub) (ref : RoomRef) (r r' : Room) :
    (h.setRoom ref r).setRoom ref r' = h.setRoom ref r' := by
  simp only [setRoom, List.set_set]

namespace RoomRef

variable {α : Type} {ref : RoomRef}

/-! ## Slots -/

/-- a record that shows something of a room; a closed room stays closed -/
def slot (ref : RoomRef) (key : Key) {V : Type} (live : Room → V)
    (shows : V → Option Record → Prop) : Slot where
  Value := V
  key := key.text
  live h := live (h.room ref)
  shows := shows
  sound h := ref.key < h.rooms.length
  drift h h' := (h.room ref).closed = true → (h'.room ref).closed = true
  drift_refl _ := fun hc => hc
  drift_trans h₁ h₂ := fun hc => h₂ (h₁ hc)

/-- the record is right for a listing, where difficulties are compared as numbers -/
def ShowsListing : Option Listing → Option Record → Prop
  | none, r => r = none
  | some l, r => ∃ l', l.agrees l' = true ∧ r = some (.listing l')

/-- the record of the settings -/
def listingSlot (ref : RoomRef) : Slot := ref.slot (.room ref.id) Room.liveListing ShowsListing

/-- the record of a user as a member -/
def playerSlot (ref : RoomRef) (user : Int32) : Slot :=
  ref.slot (.player ref.id user) (·.liveRecord user) fun v r => r = v.map .player

section Change

variable {β V : Type} {key : Key} {live : Room → V} {shows : V → Option Record → Prop}

/-- a change of the room, where the value stays or is answered for from now on -/
theorem turn_setRoom {h : Hub} (hs : ref.key < h.rooms.length) {r' : Room}
    (hc : (h.room ref).closed = true → r'.closed = true) {d : (ref.slot key live shows).Duty}
    (hv : live r' = live (h.room ref) ∨ ∀ x, d (live r') x) :
    (ref.slot key live shows).discipline.turn h .nothing (h.setRoom ref r') d := by
  have hroom : (h.setRoom ref r').room ref = r' := Hub.room_setRoom hs r'
  refine Slot.turn_begin (fun _ => ?_) (fun hclosed => ?_) ?_
  · show ref.key < (h.setRoom ref r').rooms.length
    rwa [Hub.length_setRoom]
  · rw [hroom]
    exact hc hclosed
  · show live ((h.setRoom ref r').room ref) = live (h.room ref) ∨
      ∀ x, d (live ((h.setRoom ref r').room ref)) x
    rwa [hroom]

theorem keeps_change {op : Room → Except RoomError (β × Room)}
    {Q : Except RoomError β → Hub → (ref.slot key live shows).Duty → Prop}
    (herror : ∀ e h, Q (.error e) h .nothing)
    (hok : ∀ r x r', op r = .ok (x, r') → r.closed = false ∧
      ∃ d : (ref.slot key live shows).Duty, (live r' = live r ∨ ∀ x, d (live r') x) ∧
        ∀ h', h'.room ref = r' → Q (.ok x) h' d) (h : Hub) :
    (ref.slot key live shows).discipline.Keeps (ref.change op) Q h .nothing := by
  refine Discipline.keeps_transact fun h₁ _ hs => ?_
  cases ho : op (h₁.room ref) with
  | error e => exact ⟨.nothing, Discipline.turn_refl _ h₁ _, herror e h₁⟩
  | ok p =>
    obtain ⟨x, r'⟩ := p
    obtain ⟨hopen, d, hv, hq⟩ := hok _ x r' ho
    refine ⟨d, turn_setRoom hs (fun hc => ?_) hv, hq _ (Hub.room_setRoom hs r')⟩
    rw [hopen] at hc
    cases hc

end Change

/-! ## One round of a settling loop -/

theorem listingTurn_cases (ref : RoomRef) (written : Option Listing) (h : Hub) :
    (ref.listingTurn written h = .stop () ∧
      ShowsListing (h.room ref).liveListing (written.map .listing)) ∨
    ∃ u, ref.listingTurn written h = .update u (h.room ref).liveListing ∧
      ∀ k r, u.call.leaves (Key.text k) r =
        if k = .room ref.id then (h.room ref).liveListing.map .listing else r := by
  unfold listingTurn
  cases hl : (h.room ref).liveListing with
  | none =>
    cases written with
    | none => exact .inl ⟨rfl, rfl⟩
    | some b =>
      refine .inr ⟨_, rfl, fun k r => ?_⟩
      rw [Update.leaves_noRoom]
      simp
  | some a =>
    cases written with
    | none => exact .inr ⟨_, rfl, fun k r => Update.leaves_listing k r ref.id a⟩
    | some b =>
      by_cases hab : a.agrees b = true
      · exact .inl ⟨if_pos hab, b, hab, rfl⟩
      · exact .inr ⟨_, if_neg hab, fun k r => Update.leaves_listing k r ref.id a⟩

theorem playerTurn_cases (ref : RoomRef) (user : Int32) (written : Option PlayerRecord)
    (h : Hub) :
    (ref.playerTurn user written h = .stop () ∧ (h.room ref).liveRecord user = written) ∨
    ∃ u, ref.playerTurn user written h = .update u ((h.room ref).liveRecord user) ∧
      ∀ k r, u.call.leaves (Key.text k) r =
        if k = .player ref.id user then ((h.room ref).liveRecord user).map .player else r := by
  unfold playerTurn
  dsimp only
  by_cases hw : (h.room ref).liveRecord user = written
  · exact .inl ⟨if_pos hw, hw⟩
  · rw [if_neg hw]
    cases hr : (h.room ref).liveRecord user with
    | none => exact .inr ⟨_, rfl, fun k r => Update.leaves_noPlayer k r ref.id user⟩
    | some record =>
      refine .inr ⟨_, rfl, fun k r => ?_⟩
      rw [Update.leaves_player, Room.liveRecord_owner hr]
      rfl

/-! ## What the writes leave alone -/

variable {key : Key}

theorem spares_settleListing (hk : key ≠ .room ref.id) (written : Option Listing) :
    Slot.Spares key.text (ref.settleListing written) := by
  refine Routine.within_settling _ fun found h => ?_
  rcases listingTurn_cases ref found h with ⟨ht, -⟩ | ⟨u, ht, hu⟩
  · rw [ht]
    exact trivial
  · rw [ht]
    exact fun r => (hu key r).trans (if_neg hk)

theorem spares_writeListing (hk : key ≠ .room ref.id) (l : Listing) :
    Slot.Spares key.text (ref.writeListing l) := by
  refine Routine.within_bind (Slot.spares_update fun r => ?_) fun _ => spares_settleListing hk _
  exact (Update.leaves_listing key r ref.id l).trans (if_neg hk)

theorem spares_settlePlayer {user : Int32} (hk : key ≠ .player ref.id user)
    (written : Option PlayerRecord) : Slot.Spares key.text (ref.settlePlayer user written) := by
  refine Routine.within_settling _ fun found h => ?_
  rcases playerTurn_cases ref user found h with ⟨ht, -⟩ | ⟨u, ht, hu⟩
  · rw [ht]
    exact trivial
  · rw [ht]
    exact fun r => (hu key r).trans (if_neg hk)

theorem spares_writePlayer {record : PlayerRecord}
    (hk : key ≠ .player ref.id record.profile.userId) :
    Slot.Spares key.text (ref.writePlayer record) := by
  refine Routine.within_bind (Slot.spares_update fun r => ?_) fun _ => spares_settlePlayer hk _
  exact (Update.leaves_player key r ref.id record).trans (if_neg hk)

/-! ## The record of the settings -/

theorem clears_settleListing (written : Option Listing) (h : Hub) :
    ref.listingSlot.Clears (ref.settleListing written) h (.wrote (written.map .listing)) := by
  refine Slot.clears_settling (fun found => found.map Record.listing) (fun found h => ?_) written h
  rcases listingTurn_cases ref found h with ⟨ht, hshows⟩ | ⟨u, ht, hu⟩
  · exact .inl ⟨_, ht, hshows⟩
  · exact .inr ⟨u, _, ht, fun r => (hu _ r).trans (if_pos rfl)⟩

theorem clears_writeListing (l : Listing) (h : Hub) (d : ref.listingSlot.Duty) :
    ref.listingSlot.Clears (ref.writeListing l) h d := by
  have hu := fun r => (Update.leaves_listing (.room ref.id) r ref.id l).trans (if_pos rfl)
  refine Discipline.keeps_bind (Slot.keeps_write (S := ref.listingSlot) hu h d) ?_
  intro _ h _ heq
  subst heq
  exact clears_settleListing (some l) h

/-! ## The record of a member -/

theorem clears_settlePlayer (user : Int32) (written : Option PlayerRecord) (h : Hub) :
    (ref.playerSlot user).Clears (ref.settlePlayer user written) h
      (.wrote (written.map .player)) := by
  refine Slot.clears_settling (fun found => found.map Record.player) (fun found h => ?_) written h
  rcases playerTurn_cases ref user found h with ⟨ht, hw⟩ | ⟨u, ht, hu⟩
  · exact .inl ⟨_, ht, congrArg (Option.map Record.player) hw.symm⟩
  · exact .inr ⟨u, _, ht, fun r => (hu _ r).trans (if_pos rfl)⟩

theorem keeps_writePlayer (user : Int32) (record : PlayerRecord) (h : Hub)
    (d : (ref.playerSlot user).Duty) :
    (ref.playerSlot user).discipline.Keeps (ref.writePlayer record)
      (fun _ _ d' => d' = .nothing ∨ record.profile.userId ≠ user ∧ d' = d) h d := by
  by_cases howner : record.profile.userId = user
  · subst howner
    have hu := fun r => (Update.leaves_player (.player ref.id record.profile.userId) r ref.id
      record).trans (if_pos rfl)
    refine Discipline.keeps_bind (Slot.keeps_write (S := ref.playerSlot _) hu h d) ?_
    intro _ h _ heq
    subst heq
    exact Discipline.keeps_mono (clears_settlePlayer _ (some record) h) fun _ _ _ => .inl
  · have hk : Key.player ref.id user ≠ .player ref.id record.profile.userId := by
      intro hk
      cases hk
      exact howner rfl
    have hkeeps := Slot.keeps_elsewhere (S := ref.playerSlot user) (spares_writePlayer hk) h d
    exact Discipline.keeps_mono hkeeps fun _ _ _ hd => .inr ⟨howner, hd.2⟩

/-- when the user is one of those whose records are written, any duty is done -/
theorem clears_writePlayers {user : Int32} (records : List PlayerRecord) (h : Hub)
    {d : (ref.playerSlot user).Duty}
    (hd : user ∉ records.map (·.profile.userId) → d = .nothing) :
    (ref.playerSlot user).Clears (Routine.each ref.writePlayer records) h d := by
  induction records generalizing h d with
  | nil => exact hd (List.not_mem_nil)
  | cons record records ih =>
    refine Discipline.keeps_bind (keeps_writePlayer user record h d) fun _ h' d' hd' => ?_
    refine ih h' fun hn => ?_
    rcases hd' with hd' | ⟨howner, rfl⟩
    · exact hd'
    · apply hd
      rw [List.map_cons, List.mem_cons, not_or]
      exact ⟨Ne.symm howner, hn⟩

/-! ## All records -/

theorem listing_clears_publish (h : Hub) (d : ref.listingSlot.Duty) :
    ref.listingSlot.Clears ref.publish h d := by
  refine Discipline.keeps_bind (Q := fun _ _ _ => True) ?_ ?_
  · exact Discipline.keeps_read fun h₁ _ _ =>
      ⟨d, ref.listingSlot.discipline.turn_refl h₁ d, trivial⟩
  intro read h d _
  obtain ⟨l, records⟩ := read
  apply Discipline.keeps_bind (clears_writeListing l h d)
  intro _ h _ heq
  subst heq
  have hk : ∀ user, Key.room ref.id ≠ .player ref.id user := by simp
  exact Slot.clears_elsewhere (S := ref.listingSlot)
    (Routine.within_each fun _ _ => spares_writePlayer (hk _)) h

theorem player_clears_publish {user : Int32} (h : Hub) {d : (ref.playerSlot user).Duty}
    (hd : ∀ r, ¬ d none r) : (ref.playerSlot user).Clears ref.publish h d := by
  refine Discipline.keeps_bind (Q := fun p _ d =>
    user ∉ p.2.map (fun r : PlayerRecord => r.profile.userId) → d = .nothing) ?_ ?_
  · refine Discipline.keeps_read fun h₁ _ _ => ?_
    have howners : ((h₁.room ref).members.map Member.record).map (·.profile.userId) =
        (h₁.room ref).ids := List.map_map
    by_cases hm : user ∈ (h₁.room ref).ids
    · refine ⟨d, (ref.playerSlot user).discipline.turn_refl h₁ d, fun hn => ?_⟩
      rw [howners] at hn
      exact absurd hm hn
    · refine ⟨.nothing, Slot.turn_discharge fun r hr => ?_, fun _ => rfl⟩
      have hnone : (ref.playerSlot user).live h₁ = none := Room.liveRecord_of_notMem hm
      rw [hnone] at hr
      exact absurd hr (hd r)
  intro read h d hd
  obtain ⟨l, records⟩ := read
  have hk : Key.player ref.id user ≠ .room ref.id := by simp
  refine Discipline.keeps_bind
    (Slot.keeps_elsewhere (S := ref.playerSlot user) (spares_writeListing hk l) h d) ?_
  intro _ h _ hboth
  obtain ⟨-, rfl⟩ := hboth
  exact clears_writePlayers records h hd

/-! ## No records -/

theorem listing_clears_noRoom (members : List Int32) {h : Hub}
    (hclosed : (h.room ref).closed = true) (d : ref.listingSlot.Duty) :
    ref.listingSlot.Clears (Routine.update (Update.noRoom ref.id members)) h d := by
  have hu := fun r => (Update.leaves_noRoom (.room ref.id) r ref.id members).trans
    (if_pos (.inl rfl))
  refine Slot.clears_write (S := ref.listingSlot) hu (fun h₁ hdrift => ?_) d
  show ShowsListing (h₁.room ref).liveListing none
  rw [Room.liveListing_of_closed (hdrift hclosed)]
  rfl

theorem player_clears_noRoom {user : Int32} {members : List Int32} {h : Hub}
    (hclosed : (h.room ref).closed = true) {d : (ref.playerSlot user).Duty}
    (hd : user ∉ members → d = .nothing) :
    (ref.playerSlot user).Clears (Routine.update (Update.noRoom ref.id members)) h d := by
  have hleaves := fun r => Update.leaves_noRoom (.player ref.id user) r ref.id members
  by_cases hm : user ∈ members
  · have hu := fun r => (hleaves r).trans (if_pos (.inr ⟨user, hm, rfl⟩))
    refine Slot.clears_write (S := ref.playerSlot user) hu (fun h₁ hdrift => ?_) d
    show none = ((h₁.room ref).liveRecord user).map Record.player
    rw [Room.liveRecord_of_closed (hdrift hclosed)]
    rfl
  · rw [hd hm]
    refine Slot.clears_elsewhere (S := ref.playerSlot user) (Slot.spares_update fun r => ?_) h
    refine (hleaves r).trans (if_neg ?_)
    rintro (hk | ⟨v, hv, hk⟩)
    · cases hk
    · cases hk
      exact hm hv

/-- the record of a member that has left, and what comes afterwards -/
theorem player_clears_gone {leaver user : Int32} {f : Unit → Routine α}
    (hf : ∀ x h, (ref.playerSlot user).Clears (f x) h .nothing) (h : Hub)
    {d : (ref.playerSlot user).Duty} (hd : leaver ≠ user → d = .nothing) :
    (ref.playerSlot user).Clears ((Routine.update (Update.noPlayer ref.id leaver)).bind fun _ =>
      (ref.settlePlayer leaver none).bind f) h d := by
  have hleaves := fun r => Update.leaves_noPlayer (.player ref.id user) r ref.id leaver
  by_cases hu : leaver = user
  · subst hu
    have hu := fun r => (hleaves r).trans (if_pos rfl)
    refine Discipline.keeps_bind (Slot.keeps_write (S := ref.playerSlot leaver) hu h d) ?_
    intro _ h _ heq
    subst heq
    exact (clears_settlePlayer leaver none h).bind hf
  · have hk : Key.player ref.id user ≠ .player ref.id leaver := by
      intro hk
      cases hk
      exact hu rfl
    rw [hd hu]
    have hspares := Slot.spares_update fun r => (hleaves r).trans (if_neg hk)
    refine (Slot.clears_elsewhere (S := ref.playerSlot user) hspares h).bind fun _ h => ?_
    exact (Slot.clears_elsewhere (S := ref.playerSlot user) (spares_settlePlayer hk none) h).bind hf

end RoomRef
end RhythmLobby
