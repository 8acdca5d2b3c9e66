import Mathlib.Data.Finset.Basic
import RhythmLobby.Proofs.Room.Invariant

/-!
# A room as four collections

What a room knows of its members can be kept in one list, or apart: the order in which they joined,
a table of players, the set of those who are ready and the set of those without the map.  Then
every move has to keep four collections in step by hand.  It does, and both rooms are the same.

* `Rolls`                        a room with its four collections;
* `Rolls.act`                    the moves, collection by collection;
* `Rolls.room`                   the room with one list of members;
* `Rolls.InStep`                 the collections speak of the same users;
* `Rolls.Mirrors`                an operation has the same outcome on both;
* `Rolls.InStep.run_room`        every move has, and keeps the collections in step;
* `room_state_invariant`         what always holds of both.
-/

namespace RhythmLobby

/-- what a room keeps of a member besides its flags -/
structure Player where
  profile : PlayerProfile
  modifiers : Int64
  wins : UInt32
  deriving DecidableEq

/-- a room with the order of its members, their table, and the sets of their flags -/
structure Rolls where
  settings : RoomSettings
  password : Option String
  /-- in the order in which they joined -/
  order : List Int32
  players : Table Int32 Player
  ready : Finset Int32
  withoutMap : Finset Int32
  closed : Bool

namespace Rolls
open RoomAnswer (attempt)

/-! ## Views and permissions -/

def record (s : Rolls) (user : Int32) : Option PlayerRecord :=
  (s.players.get? user).map fun p =>
    ⟨p.profile, p.wins, p.modifiers, decide (user ∈ s.ready), !decide (user ∈ s.withoutMap)⟩

/-- the member after a user, round and round -/
def successor (s : Rolls) (user : Int32) : Option Int32 :=
  if user ∈ s.order then
    let next := s.order.idxOf user + 1
    (s.order.drop next ++ s.order.take next).find? (· ≠ user)
  else none

def checkOpen (s : Rolls) : Except RoomError Unit :=
  if s.closed then .error .noSuchRoom else .ok ()

def checkMember (s : Rolls) (user : Int32) : Except RoomError Unit := do
  s.checkOpen
  if s.players.contains user then return () else throw (.notMember user)

def checkHost (s : Rolls) (user : Int32) : Except RoomError Unit := do
  s.checkOpen
  if s.settings.hostId = user then return () else throw .notHost

def checkIdle (s : Rolls) : Except RoomError Unit :=
  if s.settings.inProgress then .error .inProgress else .ok ()

/-- the rolls after a change of one member, with its record in them -/
def withRecord (s : Rolls) (user : Int32) : Except RoomError (PlayerRecord × Rolls) :=
  match s.record user with
  | some record => .ok (record, s)
  | none => .error (.notMember user)

/-! ## Members come and go -/

def create (settings : RoomSettings) (password : Option String) (host : PlayerProfile) : Rolls where
  settings := { settings with hostId := host.userId }
  password := Room.password? password
  order := [host.userId]
  players := (∅ : Table Int32 Player).insert host.userId ⟨host, 0, 0⟩
  ready := ∅
  withoutMap := ∅
  closed := false

/-- a user comes onto the order and into the table -/
def enrolled (s : Rolls) (profile : PlayerProfile) : Rolls :=
  { s with
    order := s.order ++ [profile.userId]
    players := s.players.insert profile.userId ⟨profile, 0, 0⟩ }

def join (s : Rolls) (profile : PlayerProfile) (guess : Option String) :
    Except RoomError (PlayerRecord × Rolls) := do
  s.checkOpen
  if s.players.contains profile.userId then throw .alreadyMember
  if !(s.password.isNone || s.password == guess) then throw .wrongPassword
  if s.settings.maxPlayers.toNat ≤ s.order.length then throw .full
  (s.enrolled profile).withRecord profile.userId

/-- a user is taken off every roll -/
def without (s : Rolls) (user : Int32) : Rolls :=
  { s with
    order := s.order.filter (· ≠ user)
    players := s.players.erase user
    ready := s.ready.erase user
    withoutMap := s.withoutMap.erase user }

def hostedBy (s : Rolls) (user : Int32) : Rolls :=
  { s with settings := { s.settings with hostId := user } }

def shut (s : Rolls) : Rolls := { s with closed := true }

def leave (s : Rolls) (user : Int32) : LeaveOutcome × Rolls :=
  if s.closed || !s.players.contains user then (.notMember, s)
  else
    let heir := s.successor user
    let rest := s.without user
    match rest.order with
    | [] => (.emptied, rest.shut)
    | first :: _ =>
      if s.settings.hostId = user then
        let host := heir.getD first
        (.hostPassed host, rest.hostedBy host)
      else (.left, rest)

/-- no members, no players, no flags -/
def cleared (s : Rolls) : Rolls :=
  { s with order := [], players := ∅, ready := ∅, withoutMap := ∅, closed := true }

def close (s : Rolls) (caller : Option Int32) : Except RoomError (List Int32 × Rolls) := do
  match caller with
  | some user => s.checkHost user
  | none => s.checkOpen
  return (s.order, s.cleared)

/-! ## Changes by members -/

/-- a flag of a user, in the set of those who have it -/
def flagged (flags : Finset Int32) (user : Int32) (on : Bool) : Finset Int32 :=
  if on then insert user flags else flags.erase user

def setReady (s : Rolls) (user : Int32) (ready : Bool) :
    Except RoomError (PlayerRecord × Rolls) := do
  s.checkMember user
  withRecord { s with ready := flagged s.ready user ready } user

def setHasMap (s : Rolls) (user : Int32) (hasMap : Bool) :
    Except RoomError (PlayerRecord × Rolls) := do
  s.checkMember user
  withRecord { s with withoutMap := flagged s.withoutMap user !hasMap } user

/-- a player is changed where it stands in the table -/
def modifyPlayer (s : Rolls) (user : Int32) (f : Player → Player) :
    Except RoomError (PlayerRecord × Rolls) := do
  s.checkMember user
  withRecord (match s.players.get? user with
    | some p => { s with players := s.players.insert user (f p) }
    | none => s) user

def setModifiers (s : Rolls) (user : Int32) (modifiers : Int64) :
    Except RoomError (PlayerRecord × Rolls) :=
  s.modifyPlayer user fun p => { p with modifiers := modifiers }

def addWin (s : Rolls) (user : Int32) : Except RoomError (PlayerRecord × Rolls) :=
  s.modifyPlayer user fun p =>
    { p with wins := UInt32.ofNat (min (p.wins.toNat + 1) (UInt32.size - 1)) }

/-! ## Changes by the host -/

def updateSettings (s : Rolls) (caller : Int32) (p : SettingsPatch) : Except RoomError Rolls := do
  s.checkHost caller
  s.checkIdle
  let settings := Room.patched s.settings p
  checkSettings settings.name settings.maxPlayers s.order.length
  return { s with settings := settings, password := Room.patchedPassword s.password p }

def changeMap (s : Rolls) (caller : Int32) (map : MapInfo) : Except RoomError Rolls := do
  s.checkHost caller
  s.checkIdle
  return { s with settings := { s.settings with map := map }, ready := ∅, withoutMap := ∅ }

def start (s : Rolls) (caller : Int32) : Except RoomError Rolls := do
  s.checkHost caller
  s.checkIdle
  return { s with settings := { s.settings with inProgress := true } }

def finish (s : Rolls) (caller : Int32) : Except RoomError Rolls := do
  s.checkHost caller
  if !s.settings.inProgress then throw .notInProgress
  let host :=
    if s.settings.hostRotation then (s.successor caller).getD s.settings.hostId
    else s.settings.hostId
  return { s with settings := { s.settings with inProgress := false, hostId := host }, ready := ∅ }

def transferHost (s : Rolls) (caller heir : Int32) : Except RoomError Rolls := do
  s.checkHost caller
  s.checkMember heir
  return s.hostedBy heir

/-! ## Moves -/

/-- a move as one change of the rolls -/
def act : RoomMove → Rolls → RoomAnswer × Rolls
  | .publish, s => (.done, s)
  | .join profile guess, s => attempt s (fun _ => .done) (s.join profile guess)
  | .leave user, s => (.left (s.leave user).1, (s.leave user).2)
  | .setReady user ready, s => attempt s (fun _ => .done) (s.setReady user ready)
  | .setHasMap user hasMap, s => attempt s (fun _ => .done) (s.setHasMap user hasMap)
  | .setModifiers user modifiers, s => attempt s (fun _ => .done) (s.setModifiers user modifiers)
  | .addWin user, s => attempt s (fun record => .wins record.wins) (s.addWin user)
  | .updateSettings caller patch, s =>
    attempt s (fun _ => .done) ((s.updateSettings caller patch).map (Prod.mk ()))
  | .changeMap caller map, s => attempt s (fun _ => .done)
    ((s.changeMap caller map).map (Prod.mk ()))
  | .start caller, s => attempt s (fun _ => .done) ((s.start caller).map (Prod.mk ()))
  | .finish caller, s => attempt s (fun _ => .done) ((s.finish caller).map (Prod.mk ()))
  | .transferHost caller heir, s =>
    attempt s (fun _ => .done) ((s.transferHost caller heir).map (Prod.mk ()))
  | .close caller, s => attempt s .members (s.close caller)

/-- the rolls after some moves -/
def after (s : Rolls) (moves : List RoomMove) : Rolls := moves.foldl (fun s m => (act m s).2) s

/-! ## The same room with one list -/

def member (s : Rolls) (user : Int32) : Option Member :=
  (s.players.get? user).map fun p =>
    ⟨p.profile, p.modifiers, p.wins, decide (user ∈ s.ready), !decide (user ∈ s.withoutMap)⟩

def room (id : Int32) (s : Rolls) : Room :=
  ⟨id, s.settings, s.password, s.order.filterMap s.member, s.closed⟩

/-- the four collections speak of the same users -/
structure InStep (s : Rolls) : Prop where
  nodup : s.order.Nodup
  keys : ∀ user, user ∈ s.order ↔ (s.players.get? user).isSome = true
  owners : ∀ user p, s.players.get? user = some p → p.profile.userId = user
  ready : ∀ user ∈ s.ready, user ∈ s.order
  withoutMap : ∀ user ∈ s.withoutMap, user ∈ s.order

section Views

variable {s : Rolls} {user : Int32} (id : Int32)

theorem record_eq_map_member (s : Rolls) (user : Int32) :
    s.record user = (s.member user).map Member.record := by
  rw [record, member, Option.map_map]
  rfl

theorem InStep.member_id (h : s.InStep) {m : Member} (hm : s.member user = some m) :
    m.id = user := by
  obtain ⟨p, hp, rfl⟩ := Option.map_eq_some_iff.mp hm
  exact h.owners user p hp

theorem InStep.member_eq_none_iff (h : s.InStep) : s.member user = none ↔ user ∉ s.order := by
  rw [member, Option.map_eq_none_iff, h.keys, Option.not_isSome_iff_eq_none]

theorem InStep.map_id_filterMap (h : s.InStep) {l : List Int32} (hl : ∀ v ∈ l, v ∈ s.order) :
    (l.filterMap s.member).map Member.id = l := by
  induction l with
  | nil => rfl
  | cons v l ih =>
    have hv : s.member v ≠ none := fun hn =>
      h.member_eq_none_iff.mp hn (hl v (List.mem_cons_self ..))
    obtain ⟨m, hm⟩ := Option.ne_none_iff_exists'.mp hv
    have hrest := ih fun v hv => hl v (List.mem_cons_of_mem _ hv)
    rw [List.filterMap_cons_some hm, List.map_cons, h.member_id hm, hrest]

theorem InStep.ids_room (h : s.InStep) : (s.room id).ids = s.order :=
  h.map_id_filterMap fun _ hv => hv

theorem InStep.length_members (h : s.InStep) : (s.room id).members.length = s.order.length := by
  rw [← Room.length_ids, h.ids_room]

/-- a member is found in the list where the rolls have it -/
theorem InStep.find?_filterMap (h : s.InStep) (l : List Int32) :
    (l.filterMap s.member).find? (·.id = user) = if user ∈ l then s.member user else none := by
  induction l with
  | nil => rfl
  | cons v l ih =>
    cases hm : s.member v with
    | none =>
      rw [List.filterMap_cons_none hm, ih]
      by_cases huv : user = v
      · subst huv
        simp [hm]
      · simp [huv]
    | some m =>
      have hid := h.member_id hm
      rw [List.filterMap_cons_some hm]
      by_cases huv : user = v
      · subst huv
        simp [hid, hm]
      · have hne : m.id ≠ user := fun hu => huv (hu.symm.trans hid)
        rw [List.find?_cons_of_neg (by simpa using hne), ih]
        simp [huv]

theorem InStep.member?_room (h : s.InStep) (user : Int32) :
    (s.room id).member? user = s.member user := by
  have hfind : (s.order.filterMap s.member).find? (·.id = user) = _ := h.find?_filterMap s.order
  rw [Room.member?, room, hfind]
  split
  · rfl
  · rename_i hn
    exact (h.member_eq_none_iff.mpr hn).symm

theorem InStep.record_room (h : s.InStep) (user : Int32) :
    (s.room id).record user = s.record user := by
  rw [Room.record, h.member?_room, record_eq_map_member]

theorem InStep.hasMember_room (h : s.InStep) (user : Int32) :
    (s.room id).hasMember user = s.players.contains user := by
  rw [Room.hasMember, h.member?_room, member, Option.isSome_map]
  rfl

theorem checkOpen_room (s : Rolls) : (s.room id).checkOpen = s.checkOpen := rfl

theorem checkHost_room (s : Rolls) (user : Int32) :
    (s.room id).checkHost user = s.checkHost user := rfl

theorem checkIdle_room (s : Rolls) : (s.room id).checkIdle = s.checkIdle := rfl

theorem InStep.checkMember_room (h : s.InStep) (user : Int32) :
    (s.room id).checkMember user = s.checkMember user := by
  rw [Room.checkMember, checkMember, h.hasMember_room, checkOpen_room]

/-- what stands behind a user in a list, and what stands up to it -/
theorem split_at_idxOf {l : List Int32} (hu : user ∈ l) :
    l.drop (l.idxOf user + 1) = (l.dropWhile (· ≠ user)).drop 1 ∧
      l.take (l.idxOf user + 1) = l.takeWhile (· ≠ user) ++ [user] := by
  induction l with
  | nil => cases hu
  | cons v l ih =>
    by_cases hv : v = user
    · subst hv
      simp
    · have hl : user ∈ l := by
        rcases List.mem_cons.mp hu with h | h
        · exact absurd h.symm hv
        · exact h
      obtain ⟨hdrop, htake⟩ := ih hl
      have hidx : (v :: l).idxOf user = l.idxOf user + 1 := List.idxOf_cons_ne l hv
      rw [hidx, List.drop_succ_cons, List.take_succ_cons, hdrop, htake]
      simp [hv]

/-- going round from a user is the same as what follows it and then what precedes it -/
theorem InStep.successor_room (h : s.InStep) (user : Int32) :
    (s.room id).successor user = s.successor user := by
  have hmem : (s.room id).hasMember user = decide (user ∈ s.order) := by
    rw [Bool.eq_iff_iff, Room.hasMember_iff, h.ids_room, decide_eq_true_iff]
  unfold Room.successor successor
  rw [hmem, h.ids_room]
  by_cases hu : user ∈ s.order
  · obtain ⟨hdrop, htake⟩ := split_at_idxOf hu
    have hself : ∀ l : List Int32, (l ++ [user]).find? (· ≠ user) = l.find? (· ≠ user) := by
      intro l
      simp [List.find?_append]
    simp only [hu, decide_true, if_true, hdrop, htake]
    rw [← List.append_assoc, hself]
  · simp [hu]

end Views

/-! ## Rolls that stay in step -/

variable {s : Rolls} {user : Int32} (id : Int32)

theorem inStep_create (settings : RoomSettings) (password : Option String) (host : PlayerProfile) :
    (create settings password host).InStep := by
  refine ⟨?_, fun user => ?_, fun user p hp => ?_, fun _ hu => ?_, fun _ hu => ?_⟩
  · show [host.userId].Nodup
    simp
  · show user ∈ [host.userId] ↔ (Table.get? _ user).isSome = true
    rw [create, Table.get?_insert, Table.get?_empty]
    by_cases hu : host.userId = user
    · simp [hu]
    · simp [hu, Ne.symm hu]
  · rw [create, Table.get?_insert, Table.get?_empty] at hp
    split at hp
    · rename_i hu
      cases hp
      exact hu
    · cases hp
  · exact absurd hu (Finset.notMem_empty _)
  · exact absurd hu (Finset.notMem_empty _)

theorem InStep.enrolled (h : s.InStep) {profile : PlayerProfile}
    (hnew : profile.userId ∉ s.order) : (s.enrolled profile).InStep := by
  refine ⟨?_, fun user => ?_, fun user p hp => ?_, fun u hu => ?_, fun u hu => ?_⟩
  · rw [Rolls.enrolled, List.nodup_append]
    refine ⟨h.nodup, by simp, fun a ha b hb hab => ?_⟩
    rw [List.mem_singleton] at hb
    exact hnew (hb ▸ hab ▸ ha)
  · show user ∈ s.order ++ [profile.userId] ↔ (Table.get? _ user).isSome = true
    rw [Rolls.enrolled, Table.get?_insert, List.mem_append, List.mem_singleton, h.keys]
    by_cases hu : profile.userId = user
    · simp [hu]
    · simp [hu, Ne.symm hu]
  · rw [Rolls.enrolled, Table.get?_insert] at hp
    split at hp
    · rename_i hu
      cases hp
      exact hu
    · exact h.owners user p hp
  · exact List.mem_append_left _ (h.ready u hu)
  · exact List.mem_append_left _ (h.withoutMap u hu)

theorem decide_mem_flagged (flags : Finset Int32) (user v : Int32) (on : Bool) :
    decide (v ∈ flagged flags user on) = if v = user then on else decide (v ∈ flags) := by
  unfold flagged
  by_cases hv : v = user
  · cases on <;> simp [hv]
  · cases on <;> simp [hv]

theorem mem_of_mem_flagged {flags : Finset Int32} {v : Int32} {on : Bool}
    (hv : v ∈ flagged flags user on) : v = user ∨ v ∈ flags := by
  have hdecide := decide_mem_flagged flags user v on
  by_cases hu : v = user
  · exact .inl hu
  · rw [decide_eq_true hv, if_neg hu] at hdecide
    exact .inr (of_decide_eq_true hdecide.symm)

theorem InStep.readied (h : s.InStep) (hu : user ∈ s.order) (on : Bool) :
    ({ s with ready := flagged s.ready user on } : Rolls).InStep := by
  refine ⟨h.nodup, h.keys, h.owners, fun v hv => ?_, h.withoutMap⟩
  rcases mem_of_mem_flagged hv with rfl | hv
  · exact hu
  · exact h.ready v hv

theorem InStep.mapless (h : s.InStep) (hu : user ∈ s.order) (on : Bool) :
    ({ s with withoutMap := flagged s.withoutMap user on } : Rolls).InStep := by
  refine ⟨h.nodup, h.keys, h.owners, h.ready, fun v hv => ?_⟩
  rcases mem_of_mem_flagged hv with rfl | hv
  · exact hu
  · exact h.withoutMap v hv

theorem InStep.replaced (h : s.InStep) {p p' : Player} (hp : s.players.get? user = some p)
    (hprofile : p'.profile = p.profile) :
    ({ s with players := s.players.insert user p' } : Rolls).InStep := by
  refine ⟨h.nodup, fun v => ?_, fun v q hq => ?_, h.ready, h.withoutMap⟩
  · show v ∈ s.order ↔ (Table.get? _ v).isSome = true
    rw [Table.get?_insert, h.keys]
    by_cases hv : user = v
    · subst hv
      simp [hp]
    · simp [hv]
  · rw [Table.get?_insert] at hq
    split at hq
    · rename_i hv
      cases hq
      rw [hprofile, ← hv]
      exact h.owners user p hp
    · exact h.owners v q hq

theorem InStep.without (h : s.InStep) (user : Int32) : (s.without user).InStep := by
  have hkept : ∀ v, v ∈ s.order → v ≠ user → v ∈ s.order.filter (· ≠ user) := by
    intro v hv hne
    exact List.mem_filter.mpr ⟨hv, by simpa using hne⟩
  refine ⟨List.filter_sublist.nodup h.nodup, fun v => ?_, fun v p hp => ?_, fun v hv => ?_,
    fun v hv => ?_⟩
  · show v ∈ s.order.filter (· ≠ user) ↔ ((s.players.erase user).get? v).isSome = true
    rw [Table.get?_erase, List.mem_filter, h.keys]
    by_cases hv : user = v
    · simp [hv]
    · simp [hv, Ne.symm hv]
  · replace hp : (s.players.erase user).get? v = some p := hp
    rw [Table.get?_erase] at hp
    split at hp
    · cases hp
    · exact h.owners v p hp
  · obtain ⟨hne, hv⟩ := Finset.mem_erase.mp hv
    exact hkept v (h.ready v hv) hne
  · obtain ⟨hne, hv⟩ := Finset.mem_erase.mp hv
    exact hkept v (h.withoutMap v hv) hne

theorem inStep_cleared (s : Rolls) : s.cleared.InStep := by
  refine ⟨List.nodup_nil, fun v => ?_, fun v p hp => ?_, fun v hv => ?_, fun v hv => ?_⟩
  · show v ∈ [] ↔ ((∅ : Table Int32 Player).get? v).isSome = true
    simp [Table.get?_empty]
  · cases hp
  · exact absurd hv (Finset.notMem_empty v)
  · exact absurd hv (Finset.notMem_empty v)

theorem InStep.eq_cleared (h : s.InStep) (hclosed : s.closed = true) (horder : s.order = []) :
    s = s.cleared := by
  have hplayers : s.players = ∅ := by
    have hentries : s.players.entries = [] := by
      refine List.eq_nil_iff_forall_not_mem.mpr fun e he => ?_
      have hk : e.1 ∈ s.players.keys := List.mem_map.mpr ⟨e, he, rfl⟩
      have hnone : s.players.get? e.1 = none := by
        rw [← Option.not_isSome_iff_eq_none, ← h.keys, horder]
        exact List.not_mem_nil
      exact Table.get?_eq_none_iff.mp hnone hk
    cases hp : s.players with
    | mk entries nodup =>
      rw [hp] at hentries
      dsimp only at hentries
      subst hentries
      rfl
  have hnobody : ∀ flags : Finset Int32, (∀ v ∈ flags, v ∈ s.order) → flags = ∅ := by
    intro flags hflags
    refine Finset.eq_empty_of_forall_notMem fun v hv => ?_
    have := hflags v hv
    rw [horder] at this
    exact List.not_mem_nil this
  have hready := hnobody s.ready h.ready
  have hmap := hnobody s.withoutMap h.withoutMap
  obtain ⟨settings, password, order, players, ready, withoutMap, closed⟩ := s
  dsimp only at hclosed horder hplayers hready hmap
  subst hclosed horder hplayers hready hmap
  rfl

/-! ## The same changes -/

/-- a change of one member that shows in the list in one place -/
theorem InStep.room_modify (h : s.InStep) {s' : Rolls} {f : Member → Member}
    (hsettings : s'.settings = s.settings) (hpassword : s'.password = s.password)
    (horder : s'.order = s.order) (hclosed : s'.closed = s.closed)
    (hmember : ∀ v ∈ s.order, s'.member v =
      if v = user then (s.member v).map f else s.member v) :
    s'.room id = (s.room id).modify user f := by
  have hmembers : s'.order.filterMap s'.member =
      (s.order.filterMap s.member).map fun m => if m.id = user then f m else m := by
    rw [horder, List.map_filterMap]
    refine List.filterMap_congr fun v hv => ?_
    rw [hmember v hv]
    cases hm : s.member v with
    | none => simp
    | some m =>
      have hid := h.member_id hm
      by_cases hu : v = user
      · simp [hu, hid.trans hu]
      · simp [hu, hid]
  rw [room, hsettings, hpassword, hclosed, hmembers]
  rfl

/-- a new member starts without flags, for none are left of a former one -/
theorem InStep.member_enrolled (h : s.InStep) {profile : PlayerProfile}
    (hnew : profile.userId ∉ s.order) (v : Int32) :
    (s.enrolled profile).member v =
      if profile.userId = v then some (Member.newcomer profile) else s.member v := by
  have hready : profile.userId ∉ s.ready := fun hr => hnew (h.ready _ hr)
  have hmap : profile.userId ∉ s.withoutMap := fun hr => hnew (h.withoutMap _ hr)
  rw [member, Rolls.enrolled, Table.get?_insert]
  by_cases hv : profile.userId = v
  · subst hv
    simp [hready, hmap, Member.newcomer]
  · rw [if_neg hv, if_neg hv]
    rfl

theorem InStep.room_enrolled (h : s.InStep) {profile : PlayerProfile}
    (hnew : profile.userId ∉ s.order) : (s.enrolled profile).room id =
      { s.room id with members := (s.room id).members ++ [Member.newcomer profile] } := by
  have hself : (s.enrolled profile).member profile.userId = some (Member.newcomer profile) := by
    rw [h.member_enrolled hnew, if_pos rfl]
  have hothers : ∀ v ∈ s.order, (s.enrolled profile).member v = s.member v := by
    intro v hv
    have hne : profile.userId ≠ v := fun he => hnew (he ▸ hv)
    rw [h.member_enrolled hnew, if_neg hne]
  show Room.mk _ _ _ ((s.order ++ [profile.userId]).filterMap (s.enrolled profile).member) _ = _
  rw [List.filterMap_append, List.filterMap_congr hothers, List.filterMap_cons_some hself]
  rfl

theorem InStep.room_without (h : s.InStep) (user : Int32) :
    (s.without user).room id = (s.room id).without user := by
  have hmembers : (s.order.filter (· ≠ user)).filterMap (s.without user).member =
      (s.order.filterMap s.member).filter (·.id ≠ user) := by
    rw [List.filterMap_filter, List.filter_filterMap]
    refine List.filterMap_congr fun v _ => ?_
    by_cases hv : v = user
    · subst hv
      cases hm : s.member v with
      | none => simp
      | some m => simp [Option.filter, h.member_id hm]
    · have hsame : (s.without user).member v = s.member v := by
        simp [member, Rolls.without, Table.get?_erase, Ne.symm hv, hv]
      rw [hsame]
      cases hm : s.member v with
      | none => simp [hv]
      | some m => simp [Option.filter, hv, h.member_id hm]
  show Room.mk _ _ _ ((s.order.filter (· ≠ user)).filterMap (s.without user).member) _ = _
  rw [hmembers]
  rfl

/-! ## The same outcomes -/

/-- an operation has the same outcome on both sides, and keeps the rolls in step -/
def Mirrors {α β : Type} (view : α → β) (good : α → Prop) (x : Except RoomError α)
    (y : Except RoomError β) : Prop := y = x.map view ∧ ∀ a, x = .ok a → good a

section Mirrors

variable {α β : Type} {view : α → β} {good : α → Prop}

theorem mirrors_error (e : RoomError) : Mirrors view good (.error e) (.error e) :=
  ⟨rfl, fun _ h => by cases h⟩

theorem mirrors_ok {a : α} {b : β} (hb : b = view a) (ha : good a) :
    Mirrors view good (.ok a) (.ok b) := by
  refine ⟨by rw [hb]; rfl, fun a' h => ?_⟩
  cases h
  exact ha

theorem mirrors_check {c : Except RoomError Unit} {x : Except RoomError α} {y : Except RoomError β}
    (h : c = .ok () → Mirrors view good x y) :
    Mirrors view good (c >>= fun _ => x) (c >>= fun _ => y) := by
  cases c with
  | error e => exact mirrors_error e
  | ok u => exact h rfl

theorem mirrors_throw {p : Prop} [Decidable p] (e : RoomError) {x : Except RoomError α}
    {y : Except RoomError β} (h : ¬ p → Mirrors view good x y) :
    Mirrors view good
      (do if p then throw e
          x)
      (do if p then throw e
          y) := by
  by_cases hp : p
  · simp only [hp, if_true]
    exact mirrors_error e
  · simp only [hp, if_false]
    exact h hp

/-- rolls and the room with one list -/
abbrev Alike (id : Int32) (x : Except RoomError Rolls) (y : Except RoomError Room) : Prop :=
  Mirrors (room id) InStep x y

/-- the same, with the same answer -/
abbrev AlikeWith (id : Int32) (x : Except RoomError (α × Rolls)) (y : Except RoomError (α × Room)) :
    Prop := Mirrors (fun p => (p.1, p.2.room id)) (fun p => p.2.InStep) x y

theorem Alike.answered {x : Except RoomError Rolls} {y : Except RoomError Room}
    (h : Alike id x y) : AlikeWith id (x.map (Prod.mk ())) (y.map (Prod.mk ())) := by
  obtain ⟨rfl, hgood⟩ := h
  cases x with
  | error e => exact mirrors_error e
  | ok s => exact mirrors_ok rfl (hgood s rfl)

theorem AlikeWith.attempt {x : Except RoomError (α × Rolls)} {y : Except RoomError (α × Room)}
    (h : AlikeWith id x y) (hs : s.InStep) (given : α → RoomAnswer) :
    attempt (s.room id) given y =
      ((attempt s given x).1, (attempt s given x).2.room id) ∧ (attempt s given x).2.InStep := by
  obtain ⟨rfl, hgood⟩ := h
  cases x with
  | error e => exact ⟨rfl, hs⟩
  | ok p => exact ⟨rfl, hgood p rfl⟩

end Mirrors

theorem InStep.alike_withRecord (h : s.InStep) {record : PlayerRecord}
    (hr : s.record user = some record) :
    AlikeWith id (s.withRecord user) (.ok (record, s.room id)) := by
  rw [withRecord, hr]
  exact mirrors_ok rfl h

theorem InStep.alike_changed {s' : Rolls} (h' : s'.InStep) {f : Member → Member}
    (hroom : s'.room id = (s.room id).modify user f) :
    AlikeWith id (s'.withRecord user)
      (match ((s.room id).modify user f).record user with
        | some record => .ok (record, (s.room id).modify user f)
        | none => .error (.notMember user)) := by
  rw [← hroom, h'.record_room, withRecord]
  cases s'.record user with
  | none => exact mirrors_error _
  | some record => exact mirrors_ok rfl h'

theorem checkMember_ok (h : s.InStep) (hc : s.checkMember user = .ok ()) : user ∈ s.order := by
  rw [← h.checkMember_room 0] at hc
  have := (Room.checkMember_ok hc).2
  rwa [h.ids_room] at this

theorem InStep.alike_join (h : s.InStep) (profile : PlayerProfile) (guess : Option String) :
    AlikeWith id (s.join profile guess) ((s.room id).join profile guess) := by
  unfold join Room.join
  rw [h.hasMember_room, h.length_members]
  refine mirrors_check fun _ => mirrors_throw _ fun hm => mirrors_throw _ fun _ =>
    mirrors_throw _ fun _ => ?_
  have hnew : profile.userId ∉ s.order := by
    rw [h.keys]
    exact hm
  have hrecord : (s.enrolled profile).record profile.userId =
      some (Member.newcomer profile).record := by
    rw [record_eq_map_member, h.member_enrolled hnew, if_pos rfl]
    rfl
  have hjoined := (h.enrolled hnew).alike_withRecord id hrecord
  rw [h.room_enrolled id hnew] at hjoined
  exact hjoined

theorem InStep.alike_setReady (h : s.InStep) (user : Int32) (ready : Bool) :
    AlikeWith id (s.setReady user ready) ((s.room id).setReady user ready) := by
  unfold setReady Room.setReady Room.modifyMember
  rw [h.checkMember_room]
  refine mirrors_check fun hc => ?_
  have hu := checkMember_ok h hc
  refine (h.readied hu ready).alike_changed id (h.room_modify id rfl rfl rfl rfl fun v _ => ?_)
  simp only [member, decide_mem_flagged]
  by_cases hv : v = user
  · simp only [hv, if_true, Option.map_map]
    rfl
  · simp only [hv, if_false]

theorem InStep.alike_setHasMap (h : s.InStep) (user : Int32) (hasMap : Bool) :
    AlikeWith id (s.setHasMap user hasMap) ((s.room id).setHasMap user hasMap) := by
  unfold setHasMap Room.setHasMap Room.modifyMember
  rw [h.checkMember_room]
  refine mirrors_check fun hc => ?_
  have hu := checkMember_ok h hc
  refine (h.mapless hu (!hasMap)).alike_changed id (h.room_modify id rfl rfl rfl rfl fun v _ => ?_)
  simp only [member, decide_mem_flagged]
  by_cases hv : v = user
  · simp only [hv, if_true, Option.map_map, Bool.not_not]
    rfl
  · simp only [hv, if_false]

/-- `f` and `g` make the same of a player, in the table and in the list -/
theorem InStep.alike_modifyPlayer (h : s.InStep) (user : Int32) {f : Player → Player}
    {g : Member → Member} (hprofile : ∀ p, (f p).profile = p.profile)
    (hfg : ∀ p ready hasMap, g ⟨p.profile, p.modifiers, p.wins, ready, hasMap⟩ =
      ⟨(f p).profile, (f p).modifiers, (f p).wins, ready, hasMap⟩) :
    AlikeWith id (s.modifyPlayer user f) ((s.room id).modifyMember user g) := by
  unfold modifyPlayer Room.modifyMember
  rw [h.checkMember_room]
  refine mirrors_check fun hc => ?_
  have hu := checkMember_ok h hc
  rw [h.keys] at hu
  obtain ⟨p, hp⟩ := Option.isSome_iff_exists.mp hu
  rw [hp]
  apply (h.replaced hp (hprofile p)).alike_changed id
  refine h.room_modify id rfl rfl rfl rfl fun v _ => ?_
  simp only [member, Table.get?_insert]
  by_cases hv : v = user
  · subst hv
    simp only [if_true, hp, Option.map_some, hfg]
  · simp only [hv, Ne.symm hv, if_false]

theorem InStep.alike_updateSettings (h : s.InStep) (caller : Int32) (p : SettingsPatch) :
    Alike id (s.updateSettings caller p) ((s.room id).updateSettings caller p) := by
  unfold updateSettings Room.updateSettings
  rw [checkHost_room, checkIdle_room, h.length_members]
  refine mirrors_check fun _ => mirrors_check fun _ => mirrors_check fun _ => mirrors_ok rfl ?_
  exact ⟨h.nodup, h.keys, h.owners, h.ready, h.withoutMap⟩

theorem InStep.alike_changeMap (h : s.InStep) (caller : Int32) (map : MapInfo) :
    Alike id (s.changeMap caller map) ((s.room id).changeMap caller map) := by
  unfold changeMap Room.changeMap
  rw [checkHost_room, checkIdle_room]
  refine mirrors_check fun _ => mirrors_check fun _ => mirrors_ok ?_ ?_
  · simp only [room, List.map_filterMap, member, Option.map_map]
    rfl
  · exact ⟨h.nodup, h.keys, h.owners, fun v hv => absurd hv (Finset.notMem_empty v),
      fun v hv => absurd hv (Finset.notMem_empty v)⟩

theorem InStep.alike_start (h : s.InStep) (caller : Int32) :
    Alike id (s.start caller) ((s.room id).start caller) := by
  unfold start Room.start
  rw [checkHost_room, checkIdle_room]
  refine mirrors_check fun _ => mirrors_check fun _ => mirrors_ok rfl ?_
  exact ⟨h.nodup, h.keys, h.owners, h.ready, h.withoutMap⟩

theorem InStep.alike_finish (h : s.InStep) (caller : Int32) :
    Alike id (s.finish caller) ((s.room id).finish caller) := by
  unfold finish Room.finish
  rw [checkHost_room, h.successor_room]
  refine mirrors_check fun _ => mirrors_throw _ fun _ => mirrors_ok ?_ ?_
  · simp only [room, List.map_filterMap, member, Option.map_map]
    rfl
  · exact ⟨h.nodup, h.keys, h.owners, fun v hv => absurd hv (Finset.notMem_empty v), h.withoutMap⟩

theorem InStep.alike_transferHost (h : s.InStep) (caller heir : Int32) :
    Alike id (s.transferHost caller heir) ((s.room id).transferHost caller heir) := by
  unfold transferHost Room.transferHost
  rw [checkHost_room, h.checkMember_room]
  refine mirrors_check fun _ => mirrors_check fun _ => mirrors_ok rfl ?_
  exact ⟨h.nodup, h.keys, h.owners, h.ready, h.withoutMap⟩

theorem InStep.alike_close (h : s.InStep) (caller : Option Int32) :
    AlikeWith id (s.close caller) ((s.room id).close caller) := by
  unfold close Room.close
  rw [h.ids_room]
  cases caller with
  | none => exact mirrors_check fun _ => mirrors_ok rfl (inStep_cleared s)
  | some user => exact mirrors_check fun _ => mirrors_ok rfl (inStep_cleared s)

theorem InStep.leave_room (h : s.InStep) (user : Int32) :
    (s.room id).leave user = ((s.leave user).1, (s.leave user).2.room id) ∧
      (s.leave user).2.InStep := by
  have hrest := h.without user
  have hids : ((s.room id).without user).ids = (s.without user).order := by
    rw [← h.room_without, hrest.ids_room]
  unfold leave Room.leave
  dsimp only
  rw [h.hasMember_room, hids, h.successor_room, ← h.room_without]
  by_cases hc : (s.closed || !s.players.contains user) = true
  · have hc' : ((s.room id).closed || !s.players.contains user) = true := hc
    rw [if_pos hc, if_pos hc']
    exact ⟨rfl, h⟩
  have hc' : ¬((s.room id).closed || !s.players.contains user) = true := hc
  rw [if_neg hc, if_neg hc']
  cases (s.without user).order with
  | nil => exact ⟨rfl, hrest.nodup, hrest.keys, hrest.owners, hrest.ready, hrest.withoutMap⟩
  | cons first others =>
    dsimp only
    by_cases hh : s.settings.hostId = user
    · have hh' : (s.room id).settings.hostId = user := hh
      rw [if_pos hh, if_pos hh']
      exact ⟨rfl, hrest.nodup, hrest.keys, hrest.owners, hrest.ready, hrest.withoutMap⟩
    · have hh' : ¬(s.room id).settings.hostId = user := hh
      rw [if_neg hh, if_neg hh']
      exact ⟨rfl, hrest⟩

theorem InStep.run_room (h : s.InStep) (m : RoomMove) :
    m.run (s.room id) = ((act m s).1, (act m s).2.room id) ∧ (act m s).2.InStep := by
  cases m with
  | publish => exact ⟨rfl, h⟩
  | join profile guess => exact (h.alike_join id profile guess).attempt id h _
  | leave user =>
    obtain ⟨hleave, hstep⟩ := h.leave_room id user
    rw [RoomMove.run, hleave]
    exact ⟨rfl, hstep⟩
  | setReady user ready => exact (h.alike_setReady id user ready).attempt id h _
  | setHasMap user hasMap => exact (h.alike_setHasMap id user hasMap).attempt id h _
  | setModifiers user modifiers =>
    refine AlikeWith.attempt id (h.alike_modifyPlayer id user ?_ ?_) h _
    · exact fun _ => rfl
    · exact fun _ _ _ => rfl
  | addWin user =>
    refine AlikeWith.attempt id (h.alike_modifyPlayer id user ?_ ?_) h _
    · exact fun _ => rfl
    · exact fun _ _ _ => rfl
  | updateSettings caller patch =>
    exact ((h.alike_updateSettings id caller patch).answered id).attempt id h _
  | changeMap caller map => exact ((h.alike_changeMap id caller map).answered id).attempt id h _
  | start caller => exact ((h.alike_start id caller).answered id).attempt id h _
  | finish caller => exact ((h.alike_finish id caller).answered id).attempt id h _
  | transferHost caller heir =>
    exact ((h.alike_transferHost id caller heir).answered id).attempt id h _
  | close caller => exact (h.alike_close id caller).attempt id h _

theorem room_create (settings : RoomSettings) (password : Option String) (host : PlayerProfile) :
    (create settings password host).room id = Room.create id settings password host := by
  have hhost : (create settings password host).member host.userId =
      some (Member.newcomer host) := by
    simp [member, create, Table.get?_insert, Member.newcomer]
  show Room.mk _ _ _ ([host.userId].filterMap (create settings password host).member) _ = _
  rw [List.filterMap_cons_some hhost]
  rfl

/-- of a closed room without members nothing is kept on the rolls -/
theorem InStep.eq_of_empty (h : s.InStep) {s' : Rolls} (h' : s'.InStep)
    (hroom : s'.room id = s.room id) (hclosed : s.closed = true) (horder : s.order = []) :
    s' = s := by
  have hclosed' : s'.closed = true := by
    have hsame : (s'.room id).closed = (s.room id).closed := by rw [hroom]
    exact hsame.trans hclosed
  have horder' : s'.order = [] := by
    rw [← h'.ids_room id, hroom, h.ids_room, horder]
  have hsettings : s'.settings = s.settings := by
    have hsame : (s'.room id).settings = (s.room id).settings := by rw [hroom]
    exact hsame
  have hpassword : s'.password = s.password := by
    have hsame : (s'.room id).password = (s.room id).password := by rw [hroom]
    exact hsame
  rw [h.eq_cleared hclosed horder, h'.eq_cleared hclosed' horder', cleared, cleared, hsettings,
    hpassword]

/-- any moves leave the rolls in step, and the room with one list the same -/
theorem InStep.after (h : s.InStep) (moves : List RoomMove) :
    (s.after moves).room id = (s.room id).after moves ∧ (s.after moves).InStep := by
  induction moves generalizing s with
  | nil => exact ⟨rfl, h⟩
  | cons m moves ih =>
    obtain ⟨hrun, hstep⟩ := h.run_room id m
    rw [Room.after_cons, hrun]
    exact ih hstep

end Rolls

/-- Whatever moves are made in a room with valid settings, accepted or refused: the order of its
members has no repetition and names the players in the table; the flags belong to members; the
password is not empty, and the settings are valid; an open room has from one to as many members as
it may, and one of them is its host; a closed room is empty, refuses every move and never changes
again.  Kept as one list of members, the room is the same at any time and gives the same answers. -/
theorem room_state_invariant (id : Int32) (settings : RoomSettings) (password : Option String)
    (host : PlayerProfile) (h : checkSettings settings.name settings.maxPlayers 1 = .ok ())
    (moves : List RoomMove) :
    let r := (Room.create id settings password host).after moves
    let s := (Rolls.create settings password host).after moves
    (s.room id = r ∧ ∀ m : RoomMove, (Rolls.act m s).1 = (m.run r).1) ∧
    (s.order = r.ids ∧ s.order.Nodup ∧ ∀ user, user ∈ s.order ↔ s.players.contains user = true) ∧
    ((∀ user ∈ s.ready, user ∈ s.order) ∧ ∀ user ∈ s.withoutMap, user ∈ s.order) ∧
    r.Sound ∧
    (r.closed = true →
      (s.order = [] ∧ s.players = ∅ ∧ s.ready = ∅ ∧ s.withoutMap = ∅) ∧
      ∀ m : RoomMove, Rolls.act m s = (m.dismissal, s) ∧ m.run r = (m.dismissal, r)) := by
  intro r s
  have hafter := (Rolls.inStep_create settings password host).after id moves
  rw [Rolls.room_create] at hafter
  have hroom : s.room id = r := hafter.1
  have hstep : s.InStep := hafter.2
  have hsound : r.Sound := Room.sound_after (Room.sound_create h) moves
  have hids : s.order = r.ids := by rw [← hroom, hstep.ids_room]
  have hrun : ∀ m : RoomMove, m.run r = ((Rolls.act m s).1, (Rolls.act m s).2.room id) := by
    intro m
    rw [← hroom]
    exact (hstep.run_room id m).1
  refine ⟨⟨hroom, fun m => by rw [hrun]⟩, ⟨hids, hstep.nodup, hstep.keys⟩,
    ⟨hstep.ready, hstep.withoutMap⟩, hsound, fun hclosed => ?_⟩
  have horder : s.order = [] := by
    rw [hids, Room.ids, hsound.empty hclosed]
    rfl
  have hshut : s.closed = true := by
    have hsame : (s.room id).closed = r.closed := by rw [hroom]
    exact hsame.trans hclosed
  have hcleared := hstep.eq_cleared hshut horder
  refine ⟨⟨horder, ?_, ?_, ?_⟩, fun m => ?_⟩
  · rw [hcleared]
    rfl
  · rw [hcleared]
    rfl
  · rw [hcleared]
    rfl
  have hrefused := RoomMove.run_closed hclosed m
  have hact := (hrun m).symm.trans hrefused
  rw [Prod.mk.injEq] at hact
  obtain ⟨htold, hsame⟩ := hact
  have hkept := hstep.eq_of_empty id (hstep.run_room id m).2 (hsame.trans hroom.symm) hshut horder
  exact ⟨Prod.ext htold hkept, hrefused⟩

namespace RoomMove

/-- user 8 joins user 7, gets ready and becomes host, and both leave -/
def evening : List RoomMove :=
  [.join ⟨8, "bea", "", "", ""⟩ none, .setReady 8 true, .transferHost 7 8, .leave 8, .leave 7]

/-- a room for four that user 7 hosts -/
def den : RoomSettings := .fresh "den" 4 ⟨1, 1, "", "", .keys4, .zero⟩ 7

end RoomMove

open RoomMove in
theorem room_state_invariant_evening :
    let r := (Room.create 1 den none ⟨7, "ada", "", "", ""⟩).after evening
    r.closed = true ∧ r.Sound ∧ ∀ m : RoomMove, m.run r = (m.dismissal, r) := by
  intro r
  have hvalid : checkSettings den.name den.maxPlayers 1 = .ok () := by decide +kernel
  have hclosed : r.closed = true := by decide +kernel
  obtain ⟨-, -, -, hsound, hend⟩ :=
    room_state_invariant 1 den none ⟨7, "ada", "", "", ""⟩ hvalid evening
  exact ⟨hclosed, hsound, fun m => ((hend hclosed).2 m).2⟩

end RhythmLobby
