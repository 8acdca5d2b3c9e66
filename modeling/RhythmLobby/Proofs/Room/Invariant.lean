import RhythmLobby.Proofs.Room.Convergence

/-!
# What always holds of a room

A room starts with its host as the only member.  From then on it is changed by moves, which may be
refused.

* `RoomMove.run`          a move as one change of the room, with what its maker is told;
* `Room.Sound`            what holds of a room at any time;
* `RoomMove.sound_run`    every move keeps it;
* `Room.sound_after`      so does any list of moves;
* `RoomMove.run_closed`   a closed room refuses every move and stays as it is.
-/

namespace RhythmLobby

/-- what the one who makes a move is told -/
inductive RoomAnswer where
  | done
  | wins (n : UInt32)
  | left (outcome : LeaveOutcome)
  | members (ids : List Int32)
  | refused (e : RoomError)
  deriving DecidableEq

namespace RoomAnswer

variable {α σ : Type}

/-- the outcome of a change that may be refused, where `s` is what stays then -/
def attempt (s : σ) (given : α → RoomAnswer) : Except RoomError (α × σ) → RoomAnswer × σ
  | .ok (x, s') => (given x, s')
  | .error e => (.refused e, s)

/-- what holds if nothing changes and after every accepted change holds in any case -/
theorem attempt_holds {P : σ → Prop} {s : σ} {given : α → RoomAnswer}
    {x : Except RoomError (α × σ)} (hs : P s) (hx : ∀ a s', x = .ok (a, s') → P s') :
    P (attempt s given x).2 := by
  cases x with
  | error e => exact hs
  | ok p => exact hx p.1 p.2 rfl

end RoomAnswer

namespace RoomMove
open RoomAnswer (attempt)

/-- a move as one change of the room -/
def run : RoomMove → Room → RoomAnswer × Room
  | publish, r => (.done, r)
  | join profile guess, r => attempt r (fun _ => .done) (r.join profile guess)
  | leave user, r => (.left (r.leave user).1, (r.leave user).2)
  | setReady user ready, r => attempt r (fun _ => .done) (r.setReady user ready)
  | setHasMap user hasMap, r => attempt r (fun _ => .done) (r.setHasMap user hasMap)
  | setModifiers user modifiers, r => attempt r (fun _ => .done) (r.setModifiers user modifiers)
  | addWin user, r => attempt r (fun record => .wins record.wins) (r.addWin user)
  | updateSettings caller patch, r =>
    attempt r (fun _ => .done) ((r.updateSettings caller patch).map (Prod.mk ()))
  | changeMap caller map, r => attempt r (fun _ => .done)
    ((r.changeMap caller map).map (Prod.mk ()))
  | start caller, r => attempt r (fun _ => .done) ((r.start caller).map (Prod.mk ()))
  | finish caller, r => attempt r (fun _ => .done) ((r.finish caller).map (Prod.mk ()))
  | transferHost caller heir, r =>
    attempt r (fun _ => .done) ((r.transferHost caller heir).map (Prod.mk ()))
  | close caller, r => attempt r .members (r.close caller)

/-- what everybody is told about a closed room -/
def dismissal : RoomMove → RoomAnswer
  | publish => .done
  | leave _ => .left .notMember
  | _ => .refused .noSuchRoom

end RoomMove

namespace Room

/-- the room after some moves -/
def after (r : Room) (moves : List RoomMove) : Room := moves.foldl (fun r m => (m.run r).2) r

theorem after_nil (r : Room) : r.after [] = r := rfl

theorem after_cons (r : Room) (m : RoomMove) (moves : List RoomMove) :
    r.after (m :: moves) = (m.run r).2.after moves := rfl

/-! ## Accepted changes, exactly -/

theorem join_inv {r r' : Room} {profile : PlayerProfile} {guess : Option String}
    {record : PlayerRecord} (h : r.join profile guess = .ok (record, r')) :
    r.closed = false ∧ profile.userId ∉ r.ids ∧ r.admits guess = true ∧
      r.members.length < r.settings.maxPlayers.toNat ∧
      record = (Member.newcomer profile).record ∧
      r' = { r with members := r.members ++ [Member.newcomer profile] } := by
  unfold join at h
  obtain ⟨_, ho, h⟩ := bind_ok h
  by_cases hm : r.hasMember profile.userId = true
  · simp only [hm] at h
    cases h
  simp only [hm] at h
  by_cases hp : (!r.admits guess) = true
  · simp only [hp] at h
    cases h
  simp only [hp] at h
  by_cases hf : r.settings.maxPlayers.toNat ≤ r.members.length
  · simp only [hf] at h
    cases h
  simp only [hf] at h
  cases h
  have hadmits : r.admits guess = true := by simpa using hp
  exact ⟨checkOpen_ok ho, fun hi => hm (hasMember_iff.mpr hi), hadmits, Nat.lt_of_not_le hf,
    rfl, rfl⟩

theorem modifyMember_inv {r r' : Room} {user : Int32} {f : Member → Member} {record : PlayerRecord}
    (h : r.modifyMember user f = .ok (record, r')) :
    r.closed = false ∧ user ∈ r.ids ∧ (r.modify user f).record user = some record ∧
      r' = r.modify user f := by
  unfold modifyMember at h
  obtain ⟨_, ho, h⟩ := bind_ok h
  obtain ⟨hopen, hmem⟩ := checkMember_ok ho
  dsimp only at h
  split at h
  · rename_i record' hr
    cases h
    exact ⟨hopen, hmem, hr, rfl⟩
  · cases h

theorem ids_modifyMember {r r' : Room} {user : Int32} {f : Member → Member} {record : PlayerRecord}
    (hf : ∀ m, (f m).id = m.id) (h : r.modifyMember user f = .ok (record, r')) :
    r'.ids = r.ids := by
  obtain ⟨-, -, -, rfl⟩ := modifyMember_inv h
  refine ids_map (fun m => ?_) r.members
  split
  · exact hf m
  · rfl

theorem checkIdle_ok {r : Room} (h : r.checkIdle = .ok ()) : r.settings.inProgress = false := by
  unfold checkIdle at h
  split at h
  · cases h
  · rename_i hp
    exact Bool.eq_false_iff.mpr hp

theorem updateSettings_inv {r r' : Room} {caller : Int32} {p : SettingsPatch}
    (h : r.updateSettings caller p = .ok r') :
    r.closed = false ∧ r.settings.hostId = caller ∧ r.settings.inProgress = false ∧
      checkSettings (patched r.settings p).name (patched r.settings p).maxPlayers
        r.members.length = .ok () ∧
      r' = { r with settings := patched r.settings p,
                    password := patchedPassword r.password p } := by
  unfold updateSettings at h
  obtain ⟨_, ho, h⟩ := bind_ok h
  obtain ⟨_, hi, h⟩ := bind_ok h
  obtain ⟨_, hc, h⟩ := bind_ok h
  cases h
  obtain ⟨hopen, hhost⟩ := checkHost_ok ho
  exact ⟨hopen, hhost, checkIdle_ok hi, hc, rfl⟩

theorem changeMap_inv {r r' : Room} {caller : Int32} {map : MapInfo}
    (h : r.changeMap caller map = .ok r') :
    r.closed = false ∧ r.settings.hostId = caller ∧ r.settings.inProgress = false ∧
      r' = { r with
        settings := { r.settings with map := map }
        members := r.members.map fun m => { m with ready := false, hasMap := true } } := by
  unfold changeMap at h
  obtain ⟨_, ho, h⟩ := bind_ok h
  obtain ⟨_, hi, h⟩ := bind_ok h
  cases h
  obtain ⟨hopen, hhost⟩ := checkHost_ok ho
  exact ⟨hopen, hhost, checkIdle_ok hi, rfl⟩

theorem start_inv {r r' : Room} {caller : Int32} (h : r.start caller = .ok r') :
    r.closed = false ∧ r.settings.hostId = caller ∧ r.settings.inProgress = false ∧
      r' = { r with settings := { r.settings with inProgress := true } } := by
  unfold start at h
  obtain ⟨_, ho, h⟩ := bind_ok h
  obtain ⟨_, hi, h⟩ := bind_ok h
  cases h
  obtain ⟨hopen, hhost⟩ := checkHost_ok ho
  exact ⟨hopen, hhost, checkIdle_ok hi, rfl⟩

/-- who is host after a match -/
def nextHost (r : Room) (caller : Int32) : Int32 :=
  if r.settings.hostRotation then (r.successor caller).getD r.settings.hostId
  else r.settings.hostId

theorem finish_inv {r r' : Room} {caller : Int32} (h : r.finish caller = .ok r') :
    r.closed = false ∧ r.settings.hostId = caller ∧ r.settings.inProgress = true ∧
      r' = { r with
        settings := { r.settings with inProgress := false, hostId := r.nextHost caller }
        members := r.members.map fun m => { m with ready := false } } := by
  unfold finish at h
  obtain ⟨_, ho, h⟩ := bind_ok h
  by_cases hp : (!r.settings.inProgress) = true
  · simp only [hp] at h
    cases h
  simp only [hp] at h
  cases h
  obtain ⟨hopen, hhost⟩ := checkHost_ok ho
  have hrunning : r.settings.inProgress = true := by simpa using hp
  exact ⟨hopen, hhost, hrunning, rfl⟩

theorem transferHost_inv {r r' : Room} {caller heir : Int32}
    (h : r.transferHost caller heir = .ok r') :
    r.closed = false ∧ r.settings.hostId = caller ∧ heir ∈ r.ids ∧ r' = r.hostedBy heir := by
  unfold transferHost at h
  obtain ⟨_, ho, h⟩ := bind_ok h
  obtain ⟨_, hm, h⟩ := bind_ok h
  cases h
  obtain ⟨hopen, hhost⟩ := checkHost_ok ho
  exact ⟨hopen, hhost, (checkMember_ok hm).2, rfl⟩

/-! ## Members and hosts -/

theorem length_ids (r : Room) : r.ids.length = r.members.length := List.length_map _

theorem ids_without (r : Room) (user : Int32) :
    (r.without user).ids = r.ids.filter (· ≠ user) := by
  simp only [ids, without, List.filter_map, Function.comp_def]

theorem ids_leave {r : Room} (hopen : r.closed = false) (user : Int32) :
    (r.leave user).2.ids = r.ids.filter (· ≠ user) := by
  by_cases hmem : user ∈ r.ids
  · rw [← ids_without]
    rcases leave_of_mem hopen hmem with ⟨-, hl⟩ | ⟨-, hl | ⟨host, hl⟩⟩
    all_goals exact congrArg (fun left => left.2.ids) hl
  · rw [leave_of_notMem (.inr hmem), eq_comm, List.filter_eq_self]
    intro v hv
    simpa using fun h : v = user => hmem (h ▸ hv)

theorem successor_mem {r : Room} {user heir : Int32} (h : r.successor user = some heir) :
    heir ∈ r.ids ∧ heir ≠ user := by
  unfold successor at h
  split at h
  · have hfound := List.mem_of_find?_eq_some h
    have hne : heir ≠ user := by simpa using List.find?_some h
    refine ⟨?_, hne⟩
    rcases List.mem_append.mp hfound with hafter | hbefore
    · exact (List.dropWhile_sublist _).subset (List.mem_of_mem_drop hafter)
    · exact (List.takeWhile_sublist _).subset hbefore
  · cases h

theorem nextHost_mem {r : Room} (hhost : r.settings.hostId ∈ r.ids) (caller : Int32) :
    r.nextHost caller ∈ r.ids := by
  unfold nextHost
  split
  · cases hs : r.successor caller with
    | none => exact hhost
    | some heir => exact (successor_mem hs).1
  · exact hhost

theorem password?_ne (p : Option String) : password? p ≠ some "" := by
  intro h
  have := (Option.filter_eq_some_iff.mp h).2
  simp at this

theorem patchedPassword_ne {old : Option String} (h : old ≠ some "") (p : SettingsPatch) :
    patchedPassword old p ≠ some "" := by
  unfold patchedPassword
  split
  · exact password?_ne _
  · exact h

/-! ## The invariant -/

/-- what holds of a room at any time -/
structure Sound (r : Room) : Prop where
  nodup : r.ids.Nodup
  password : r.password ≠ some ""
  name : isBlankText r.settings.name = false
  size : minPlayers ≤ r.settings.maxPlayers.toNat ∧ r.settings.maxPlayers.toNat ≤ maxPlayers
  inhabited : r.closed = false →
    1 ≤ r.ids.length ∧ r.ids.length ≤ r.settings.maxPlayers.toNat ∧ r.settings.hostId ∈ r.ids
  empty : r.closed = true → r.members = []

theorem sound_create {id : Int32} {settings : RoomSettings} {password : Option String}
    {host : PlayerProfile} (h : checkSettings settings.name settings.maxPlayers 1 = .ok ()) :
    (create id settings password host).Sound := by
  obtain ⟨hname, hmin, hmax, -⟩ := checkSettings_eq_ok_iff.mp h
  have hids : (create id settings password host).ids = [host.userId] := rfl
  refine ⟨?_, password?_ne _, hname, ⟨hmin, hmax⟩, fun _ => ?_, fun hc => by cases hc⟩
  · rw [hids, List.nodup_cons]
    exact ⟨List.not_mem_nil, List.nodup_nil⟩
  rw [hids]
  refine ⟨Nat.le_refl 1, ?_, List.mem_singleton.mpr rfl⟩
  show 1 ≤ settings.maxPlayers.toNat
  unfold minPlayers at hmin
  omega

theorem Sound.sameIds {r r' : Room} (hr : r.Sound) (hopen : r.closed = false)
    (hopen' : r'.closed = false) (hids : r'.ids = r.ids) (hpassword : r'.password = r.password)
    (hname : r'.settings.name = r.settings.name)
    (hsize : r'.settings.maxPlayers = r.settings.maxPlayers)
    (hhost : r'.settings.hostId ∈ r.ids) : r'.Sound := by
  obtain ⟨hsome, hfits, -⟩ := hr.inhabited hopen
  refine ⟨?_, ?_, ?_, ?_, ?_, ?_⟩
  · rw [hids]
    exact hr.nodup
  · rw [hpassword]
    exact hr.password
  · rw [hname]
    exact hr.name
  · rw [hsize]
    exact hr.size
  · intro _
    rw [hids, hsize]
    exact ⟨hsome, hfits, hhost⟩
  · intro hc
    rw [hopen'] at hc
    cases hc

theorem Sound.join {r r' : Room} (hr : r.Sound) {profile : PlayerProfile} {guess : Option String}
    {record : PlayerRecord} (h : r.join profile guess = .ok (record, r')) : r'.Sound := by
  have hnodup := (join_ok h).nodup hr.nodup
  obtain ⟨hopen, -, -, hfits, -, rfl⟩ := join_inv h
  obtain ⟨hsome, -, hhost⟩ := hr.inhabited hopen
  refine ⟨hnodup, hr.password, hr.name, hr.size, fun _ => ?_, fun hc => ?_⟩
  · have hlength :
        ({ r with members := r.members ++ [Member.newcomer profile] } : Room).ids.length =
          r.members.length + 1 := by
      rw [length_ids, List.length_append]
      rfl
    rw [hlength]
    refine ⟨by omega, hfits, ?_⟩
    exact List.map_subset _ (List.subset_append_left _ _) hhost
  · replace hc : r.closed = true := hc
    rw [hopen] at hc
    cases hc

theorem Sound.modifyMember {r r' : Room} (hr : r.Sound) {user : Int32} {f : Member → Member}
    (hf : ∀ m, (f m).id = m.id) {record : PlayerRecord}
    (h : r.modifyMember user f = .ok (record, r')) : r'.Sound := by
  have hids := ids_modifyMember hf h
  obtain ⟨hopen, -, -, rfl⟩ := modifyMember_inv h
  exact hr.sameIds hopen hopen hids rfl rfl rfl (hr.inhabited hopen).2.2

theorem Sound.updateSettings {r r' : Room} (hr : r.Sound) {caller : Int32} {p : SettingsPatch}
    (h : r.updateSettings caller p = .ok r') : r'.Sound := by
  obtain ⟨hopen, -, -, hc, rfl⟩ := updateSettings_inv h
  obtain ⟨hname, hmin, hmax, hfits⟩ := checkSettings_eq_ok_iff.mp hc
  obtain ⟨hsome, -, hhost⟩ := hr.inhabited hopen
  refine ⟨hr.nodup, patchedPassword_ne hr.password p, hname, ⟨hmin, hmax⟩, fun _ => ?_, hr.empty⟩
  refine ⟨hsome, ?_, hhost⟩
  show r.ids.length ≤ _
  rw [length_ids]
  exact hfits

theorem Sound.changeMap {r r' : Room} (hr : r.Sound) {caller : Int32} {map : MapInfo}
    (h : r.changeMap caller map = .ok r') : r'.Sound := by
  have hids := (changeMap_ok h).ids
  obtain ⟨hopen, -, -, rfl⟩ := changeMap_inv h
  exact hr.sameIds hopen hopen hids rfl rfl rfl (hr.inhabited hopen).2.2

theorem Sound.start {r r' : Room} (hr : r.Sound) {caller : Int32} (h : r.start caller = .ok r') :
    r'.Sound := by
  obtain ⟨hopen, -, -, rfl⟩ := start_inv h
  exact hr.sameIds hopen hopen rfl rfl rfl rfl (hr.inhabited hopen).2.2

theorem Sound.finish {r r' : Room} (hr : r.Sound) {caller : Int32}
    (h : r.finish caller = .ok r') : r'.Sound := by
  have hids := (finish_ok h).ids
  obtain ⟨hopen, -, -, rfl⟩ := finish_inv h
  have hhost := nextHost_mem (hr.inhabited hopen).2.2 caller
  exact hr.sameIds hopen hopen hids rfl rfl rfl hhost

theorem Sound.transferHost {r r' : Room} (hr : r.Sound) {caller heir : Int32}
    (h : r.transferHost caller heir = .ok r') : r'.Sound := by
  obtain ⟨hopen, -, hheir, rfl⟩ := transferHost_inv h
  exact hr.sameIds hopen hopen rfl rfl rfl rfl hheir

theorem Sound.close {r r' : Room} (hr : r.Sound) {caller : Option Int32} {members : List Int32}
    (h : r.close caller = .ok (members, r')) : r'.Sound := by
  obtain ⟨-, -, rfl⟩ := close_ok h
  refine ⟨List.nodup_nil, hr.password, hr.name, hr.size, fun hc => ?_, fun _ => rfl⟩
  cases hc

theorem Sound.rest {r : Room} (hr : r.Sound) (hopen : r.closed = false) {user host : Int32}
    (hrest : (r.without user).ids ≠ []) (hhost : host ∈ (r.without user).ids) :
    ((r.without user).hostedBy host).Sound := by
  obtain ⟨-, hfits, -⟩ := hr.inhabited hopen
  refine ⟨nodup_without hr.nodup user, hr.password, hr.name, hr.size, fun _ => ?_, fun hc => ?_⟩
  · refine ⟨List.length_pos_iff.mpr hrest, ?_, hhost⟩
    have hfewer : (r.without user).ids.length ≤ r.ids.length := by
      rw [ids_without]
      exact List.length_filter_le _ _
    exact Nat.le_trans hfewer hfits
  · replace hc : r.closed = true := hc
    rw [hopen] at hc
    cases hc

theorem Sound.leave {r : Room} (hr : r.Sound) (user : Int32) : (r.leave user).2.Sound := by
  unfold Room.leave
  by_cases hc : (r.closed || !r.hasMember user) = true
  · rw [if_pos hc]
    exact hr
  rw [if_neg hc]
  simp only [Bool.or_eq_true, Bool.not_eq_true', not_or] at hc
  have hopen : r.closed = false := Bool.eq_false_iff.mpr hc.1
  dsimp only
  cases hids : (r.without user).ids with
  | nil =>
    have hgone : (r.without user).members = [] := List.map_eq_nil_iff.mp hids
    refine ⟨nodup_without hr.nodup user, hr.password, hr.name, hr.size, fun h => ?_, fun _ => hgone⟩
    cases h
  | cons first rest =>
    have hrest : (r.without user).ids ≠ [] := by
      rw [hids]
      exact List.cons_ne_nil _ _
    have hmem : ∀ v, v ∈ r.ids → v ≠ user → v ∈ (r.without user).ids := by
      intro v hv hne
      rw [ids_without]
      exact List.mem_filter.mpr ⟨hv, by simpa using hne⟩
    by_cases hh : r.settings.hostId = user
    · simp only [hh, if_true]
      apply hr.rest hopen hrest
      cases hs : r.successor user with
      | none =>
        rw [hids]
        exact List.mem_cons_self ..
      | some heir =>
        obtain ⟨hin, hne⟩ := successor_mem hs
        exact hmem heir hin hne
    · simp only [hh, if_false]
      exact hr.rest hopen hrest (hmem _ (hr.inhabited hopen).2.2 hh)

end Room

namespace RoomMove
open RoomAnswer (attempt_holds)

theorem sound_run {r : Room} (hr : r.Sound) (m : RoomMove) : (m.run r).2.Sound := by
  cases m with
  | publish => exact hr
  | join profile guess => exact attempt_holds hr fun _ _ h => hr.join h
  | leave user => exact hr.leave user
  | setReady user ready =>
    exact attempt_holds hr fun _ _ h =>
      hr.modifyMember (f := fun m => { m with ready := ready }) (fun _ => rfl) h
  | setHasMap user hasMap =>
    exact attempt_holds hr fun _ _ h =>
      hr.modifyMember (f := fun m => { m with hasMap := hasMap }) (fun _ => rfl) h
  | setModifiers user modifiers =>
    exact attempt_holds hr fun _ _ h =>
      hr.modifyMember (f := fun m => { m with modifiers := modifiers }) (fun _ => rfl) h
  | addWin user =>
    exact attempt_holds hr fun _ _ h => hr.modifyMember (f := Member.win) (fun _ => rfl) h
  | updateSettings caller patch =>
    refine attempt_holds hr fun _ _ h => ?_
    obtain ⟨_, ho, hr'⟩ := Room.map_ok h
    cases hr'
    exact hr.updateSettings ho
  | changeMap caller map =>
    refine attempt_holds hr fun _ _ h => ?_
    obtain ⟨_, ho, hr'⟩ := Room.map_ok h
    cases hr'
    exact hr.changeMap ho
  | start caller =>
    refine attempt_holds hr fun _ _ h => ?_
    obtain ⟨_, ho, hr'⟩ := Room.map_ok h
    cases hr'
    exact hr.start ho
  | finish caller =>
    refine attempt_holds hr fun _ _ h => ?_
    obtain ⟨_, ho, hr'⟩ := Room.map_ok h
    cases hr'
    exact hr.finish ho
  | transferHost caller heir =>
    refine attempt_holds hr fun _ _ h => ?_
    obtain ⟨_, ho, hr'⟩ := Room.map_ok h
    cases hr'
    exact hr.transferHost ho
  | close caller => exact attempt_holds hr fun _ _ h => hr.close h

end RoomMove

theorem Room.sound_after {r : Room} (hr : r.Sound) (moves : List RoomMove) :
    (r.after moves).Sound := by
  induction moves generalizing r with
  | nil => exact hr
  | cons m moves ih => exact ih (RoomMove.sound_run hr m)

/-! ## Closed rooms -/

namespace Room

variable {r : Room} (h : r.closed = true)
include h

theorem checkOpen_closed : r.checkOpen = .error .noSuchRoom := if_pos h

theorem checkMember_closed (user : Int32) : r.checkMember user = .error .noSuchRoom := by
  rw [checkMember, checkOpen_closed h]
  rfl

theorem checkHost_closed (user : Int32) : r.checkHost user = .error .noSuchRoom := by
  rw [checkHost, checkOpen_closed h]
  rfl

theorem modifyMember_closed (user : Int32) (f : Member → Member) :
    r.modifyMember user f = .error .noSuchRoom := by
  rw [modifyMember, checkMember_closed h]
  rfl

end Room

theorem RoomMove.run_closed {r : Room} (h : r.closed = true) (m : RoomMove) :
    m.run r = (m.dismissal, r) := by
  have hhost := Room.checkHost_closed h
  cases m with
  | publish => rfl
  | join profile guess =>
    rw [run, Room.join, Room.checkOpen_closed h]
    rfl
  | leave user =>
    have hl : r.leave user = (.notMember, r) := if_pos (by rw [h]; rfl)
    rw [run, hl]
    rfl
  | setReady user ready =>
    rw [run, Room.setReady, Room.modifyMember_closed h]
    rfl
  | setHasMap user hasMap =>
    rw [run, Room.setHasMap, Room.modifyMember_closed h]
    rfl
  | setModifiers user modifiers =>
    rw [run, Room.setModifiers, Room.modifyMember_closed h]
    rfl
  | addWin user =>
    rw [run, Room.addWin, Room.modifyMember_closed h]
    rfl
  | updateSettings caller patch =>
    rw [run, Room.updateSettings, hhost]
    rfl
  | changeMap caller map =>
    rw [run, Room.changeMap, hhost]
    rfl
  | start caller =>
    rw [run, Room.start, hhost]
    rfl
  | finish caller =>
    rw [run, Room.finish, hhost]
    rfl
  | transferHost caller heir =>
    rw [run, Room.transferHost, hhost]
    rfl
  | close caller =>
    cases caller with
    | none =>
      rw [run, Room.close, Room.checkOpen_closed h]
      rfl
    | some user =>
      rw [run, Room.close, hhost]
      rfl

end RhythmLobby
