import Mathlib.Data.List.Forall2
import RhythmLobby.Proofs.Replica

/-!
# Rooms as clients know them

A client is shown the whole room when it enters and after most changes.  In between it hears who has
joined and who has left.

* `RoomView`           a room as a client knows it, and how the client follows what it hears;
* `RoomView.Shows`     the view is right, but for names that the client has not been shown;
* `Hub.WellFormed`           what is needed of memory so that the right clients are told;
* `Hub.Touched`        all rooms but one are as they were;
* `Touched.keeps`      if that room's members are told what has changed, all views stay right.
-/

namespace RhythmLobby
open Routine

/-! ## Players -/

/-- a player as a client knows it, perhaps not by name -/
structure KnownPlayer where
  userId : Int32
  username : Option String
  ready : Bool
  hasMap : Bool
  modifiers : Int64
  wins : UInt32
  deriving DecidableEq

namespace KnownPlayer

/-- a player that the client has been shown -/
def of (p : RoomPlayer) : KnownPlayer :=
  ⟨p.userId, some p.username, p.ready, p.hasMap, p.modifiers, p.wins⟩

/-- a player of which the client has heard that it has joined -/
def newcomer (user : Int32) : KnownPlayer := ⟨user, none, false, true, 0, 0⟩

/-- this is the player, but its name may be unknown -/
def Shows (k : KnownPlayer) (p : RoomPlayer) : Prop := k = of p ∨ k = { of p with username := none }

theorem Shows.userId {k : KnownPlayer} {p : RoomPlayer} (h : k.Shows p) : k.userId = p.userId := by
  rcases h with rfl | rfl
  · rfl
  · rfl

end KnownPlayer

/-! ## Rooms -/

/-- the same room with other players -/
def RoomSnapshot.withPlayers (r : RoomSnapshot) (players : List RoomPlayer) : RoomSnapshot :=
  { r with players := players }

/-- a room as it was shown last, and its players since then -/
structure RoomView where
  shown : RoomSnapshot
  players : List KnownPlayer
  deriving DecidableEq

namespace RoomView

def of (r : RoomSnapshot) : RoomView := ⟨r, r.players.map .of⟩

def joined (v : RoomView) (user : Int32) : RoomView :=
  { v with players := v.players ++ [.newcomer user] }

def left (v : RoomView) (user : Int32) : RoomView :=
  { v with players := v.players.filter (·.userId ≠ user) }

def follow (view : Option RoomView) : ServerPacket → Option RoomView
  | .roomInfo r => some (of r)
  | .roomUpdate r => some (of r)
  | .roomPlayerJoined _ user => view.map (·.joined user)
  | .roomPlayerLeft _ user => view.map (·.left user)
  | .roomClosed _ => none
  | _ => view

/-- nothing but the players may differ from what was shown, and the players are those of the room in
the order in which they joined -/
def Shows (v : RoomView) (r : RoomSnapshot) : Prop :=
  r = v.shown.withPlayers r.players ∧ List.Forall₂ KnownPlayer.Shows v.players r.players

variable {v : RoomView} {r : Room}

theorem shows_of (r : RoomSnapshot) : (of r).Shows r :=
  ⟨rfl, List.forall₂_map_left_iff.mpr (List.forall₂_same.mpr fun _ _ => .inl rfl)⟩

theorem Shows.withMembers (h : v.Shows r.snapshot) {members : List Member}
    {players : List KnownPlayer}
    (hplayers : List.Forall₂ KnownPlayer.Shows players (members.map Member.toPlayer)) :
    { v with players := players }.Shows { r with members := members }.snapshot :=
  ⟨congrArg (RoomSnapshot.withPlayers · (members.map Member.toPlayer)) h.1, hplayers⟩

/-- one who has joined has the map, is not ready, and has nothing else -/
theorem Shows.joined (h : v.Shows r.snapshot) (profile : PlayerProfile) :
    (v.joined profile.userId).Shows
      { r with members := r.members ++ [Member.newcomer profile] }.snapshot := by
  apply h.withMembers
  rw [List.map_append]
  exact List.rel_append h.2 (.cons (.inr rfl) .nil)

theorem Shows.left (h : v.Shows r.snapshot) (user : Int32) :
    (v.left user).Shows (r.without user).snapshot := by
  have hsame : (r.members.filter (·.id ≠ user)).map Member.toPlayer =
      (r.members.map Member.toPlayer).filter (·.userId ≠ user) := by
    rw [List.filter_map]
    rfl
  apply h.withMembers
  rw [hsame]
  exact List.rel_filter (fun k p hk => by simp only [hk.userId]) h.2

/-- While a session is found and its user is in a room, its client knows the room. -/
def replica : Replica (Option RoomView) where
  blank := none
  follow := follow
  Shows h s view := h.Finds s → ∀ id ref, h.openRooms.get? id = some ref →
    s.id ∈ (h.room ref).ids → ∃ v, view = some v ∧ v.Shows (h.room ref).snapshot
  absent hlost hfound := absurd hfound hlost

end RoomView

/-! ## What a client hears of rooms -/

namespace RoomView

/-- what is heard takes right views of one room to right views of another -/
def Brings (events : List LineEvent) (r r' : RoomSnapshot) : Prop :=
  ∀ v : RoomView, v.Shows r → ∃ v', replica.after (some v) events = some v' ∧ v'.Shows r'

/-- whatever the client knew before, it knows the room after what is heard -/
def Reveals (events : List LineEvent) (r : RoomSnapshot) : Prop :=
  ∀ view, ∃ v, replica.after view events = some v ∧ v.Shows r

theorem after_quiet {events : List LineEvent} (h : ∀ event ∈ events, ¬ event.OfRoom)
    (view : Option RoomView) : replica.after view events = view := by
  refine replica.after_eq_self view fun p hp view => ?_
  have hother := h _ hp
  cases p with
  | roomInfo r => exact absurd trivial hother
  | roomUpdate r => exact absurd trivial hother
  | roomPlayerJoined room user => exact absurd trivial hother
  | roomPlayerLeft room user => exact absurd trivial hother
  | roomClosed room => exact absurd trivial hother
  | _ => rfl

theorem brings_quiet {events : List LineEvent} (h : ∀ event ∈ events, ¬ event.OfRoom)
    (r : RoomSnapshot) : Brings events r r :=
  fun v hv => ⟨v, after_quiet h _, hv⟩

theorem Reveals.brings {events : List LineEvent} {r : RoomSnapshot} (h : Reveals events r)
    (r₀ : RoomSnapshot) : Brings events r₀ r := fun v _ => h (some v)

theorem reveals_info (r : RoomSnapshot) : Reveals [.frame (.roomInfo r)] r :=
  fun _ => ⟨of r, rfl, shows_of r⟩

theorem reveals_update (events : List LineEvent) (r : RoomSnapshot) :
    Reveals (events ++ [.frame (.roomUpdate r)]) r := by
  intro view
  rw [Replica.after_append]
  exact ⟨of r, rfl, shows_of r⟩

/-- The view of a session is right again if it was right of the same room and what is heard brings
it up to date, or if the room is revealed to the client. -/
theorem keeps_of_seat {h h' : Hub} {s : Session} {es : List Effect}
    (hfinds : h'.Finds s → h.Finds s)
    (hseat : ∀ id ref, h'.Finds s → h'.openRooms.get? id = some ref → s.id ∈ (h'.room ref).ids →
      Reveals (heardAt s.line es) (h'.room ref).snapshot ∨
      (h.openRooms.get? id = some ref ∧ s.id ∈ (h.room ref).ids ∧
        Brings (heardAt s.line es) (h.room ref).snapshot (h'.room ref).snapshot)) :
    replica.Keeps s h es h' := by
  intro view hview hfound id ref hr hmem
  rcases hseat id ref hfound hr hmem with hreveals | ⟨hr₀, hmem₀, hbrings⟩
  · exact hreveals view
  · obtain ⟨v, rfl, hv⟩ := hview (hfinds hfound) id ref hr₀ hmem₀
    exact hbrings v hv

end RoomView

/-! ## One room is touched -/

namespace Hub

/-- Sessions and rooms can be told apart, and members are noted to be in their rooms. -/
structure WellFormed (h : Hub) : Prop where
  coherent : h.directory.Coherent
  apart : h.directory.Apart
  numbered : ∃ n, h.Numbered n
  allOpen : h.AllOpen
  noted : ∀ {id ref user}, h.openRooms.get? id = some ref → user ∈ (h.room ref).ids →
    h.memberships.get? user = some id

/-- Nobody comes online or goes, and apart from one room, all rooms that can be found could be found
before and are as they were. -/
structure Touched (h : Hub) (ref : RoomRef) (h' : Hub) : Prop where
  directory : h'.directory = h.directory
  others : ∀ {id ref'}, h'.openRooms.get? id = some ref' → ref' ≠ ref →
    h.openRooms.get? id = some ref' ∧ h'.room ref' = h.room ref'

variable {h h' h₁ : Hub} {ref : RoomRef} {s : Session} {es : List Effect}

theorem WellFormed.named (ht : h.WellFormed) {id : Int32} (hr : h.openRooms.get? id = some ref) :
    ref.id = id := by
  obtain ⟨n, hn⟩ := ht.numbered
  exact hn.named hr

theorem WellFormed.ne_of_unnoted (ht : h.WellFormed) {id user v : Int32}
    (hnew : h.memberships.get? user = none) (hr : h.openRooms.get? id = some ref)
    (hmem : v ∈ (h.room ref).ids) : v ≠ user := by
  intro heq
  subst heq
  have hnoted := ht.noted hr hmem
  rw [hnew] at hnoted
  cases hnoted

theorem WellFormed.members (ht : h.WellFormed) {id : Int32} (hr : h.openRooms.get? id = some ref) :
    (h.room ref).ids.Nodup := by
  obtain ⟨n, hn⟩ := ht.numbered
  exact hn.members hr

theorem WellFormed.room_setRoom (ht : h.WellFormed) (hr : h.openRooms.get? ref.id = some ref)
    (r : Room) :
    (h.setRoom ref r).room ref = r := by
  obtain ⟨n, hn⟩ := ht.numbered
  exact Hub.room_setRoom (hn.made hr) r

theorem WellFormed.sameRooms (ht : h.WellFormed) (hs : h.SameRooms h')
    (hm : h'.memberships = h.memberships)
    (hc : h'.directory.Coherent) (ha : h'.directory.Apart) : h'.WellFormed where
  coherent := hc
  apart := ha
  numbered := by
    obtain ⟨n, hn⟩ := ht.numbered
    exact ⟨n, hs.numbered hn⟩
  allOpen := hs.allOpen ht.allOpen
  noted hr hmem := by
    rw [hs.openRooms] at hr
    rw [hs.room] at hmem
    rw [hm]
    exact ht.noted hr hmem

theorem WellFormed.elsewhere (ht : h.WellFormed) {id id' user : Int32} {ref' : RoomRef}
    (hr : h.openRooms.get? id = some ref) (hr' : h.openRooms.get? id' = some ref')
    (hmem' : user ∈ (h.room ref').ids) (hne : ref' ≠ ref) : user ∉ (h.room ref).ids := by
  intro hmem
  have hnoted := ht.noted hr hmem
  rw [ht.noted hr' hmem'] at hnoted
  cases hnoted
  rw [hr] at hr'
  cases hr'
  exact hne rfl

/-- a packet for some users, as a session hears it that is found -/
theorem WellFormed.heard_users (ht : h.WellFormed) (hd : h₁.directory = h.directory)
    (hs : h.Finds s)
    {users : List Int32} (hnodup : users.Nodup) (p : ServerPacket) :
    heardAt s.line [.fanOut p (h₁.sessionsOf users)] = if s.id ∈ users then [.frame p] else [] := by
  rw [sessionsOf, hd]
  exact heard_sessionsOf ht.coherent ht.apart hs hnodup p

theorem WellFormed.touched_setRoom (ht : h.WellFormed) (hr : h.openRooms.get? ref.id = some ref)
    (r : Room) :
    h.Touched ref (h.setRoom ref r) := by
  obtain ⟨n, hn⟩ := ht.numbered
  refine ⟨rfl, fun {id ref'} hr' hne => ⟨hr', ?_⟩⟩
  rw [hn.room_setRoom hr hr', if_neg]
  intro heq
  subst heq
  rw [show h.openRooms.get? ref.id = some ref' from hr'] at hr
  cases hr
  exact hne rfl

/-- Views stay right if those who are in other rooms hear nothing, and those who are in this one are
brought up to date. -/
theorem Touched.keeps (ht : h.Touched ref h')
    (hothers : ∀ s id ref', h.Finds s → h.openRooms.get? id = some ref' → ref' ≠ ref →
      s.id ∈ (h.room ref').ids → heardAt s.line es = [])
    (hmembers : ∀ s id, h.Finds s → h'.openRooms.get? id = some ref → s.id ∈ (h'.room ref).ids →
      RoomView.Reveals (heardAt s.line es) (h'.room ref).snapshot ∨
      (h.openRooms.get? id = some ref ∧ s.id ∈ (h.room ref).ids ∧
        RoomView.Brings (heardAt s.line es) (h.room ref).snapshot (h'.room ref).snapshot))
    (s : Session) : RoomView.replica.Keeps s h es h' := by
  refine RoomView.keeps_of_seat (finds_congr ht.directory).mp fun id ref' hfound hr hmem => ?_
  have hfound₀ := (finds_congr ht.directory).mp hfound
  by_cases hsame : ref' = ref
  · subst hsame
    exact hmembers s id hfound₀ hr hmem
  · obtain ⟨hr₀, hroom⟩ := ht.others hr hsame
    rw [hroom] at hmem ⊢
    rw [hothers s id ref' hfound₀ hr₀ hsame hmem]
    exact .inr ⟨hr₀, hmem, fun v hv => ⟨v, rfl, hv⟩⟩

theorem keeps_of_quiet (hd : h'.Finds s → h.Finds s) (ho : h'.openRooms = h.openRooms)
    (hr : h'.rooms = h.rooms) (hquiet : ∀ event ∈ heardAt s.line es, ¬ event.OfRoom) :
    RoomView.replica.Keeps s h es h' := by
  refine RoomView.keeps_of_seat hd fun id ref _ hfound hmem => ?_
  have hroom : h'.room ref = h.room ref := by rw [room, room, hr]
  rw [hroom] at hmem ⊢
  exact .inr ⟨ho ▸ hfound, hmem, RoomView.brings_quiet hquiet _⟩

theorem keeps_of_same (hd : h'.Finds s → h.Finds s) (ho : h'.openRooms = h.openRooms)
    (hr : h'.rooms = h.rooms) : RoomView.replica.Keeps s h [] h' :=
  keeps_of_quiet hd ho hr fun _ hevent => absurd hevent List.not_mem_nil

end Hub
end RhythmLobby
