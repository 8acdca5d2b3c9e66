import Mathlib.Data.List.Rotate
import RhythmLobby.Proofs.Room.Reach
import RhythmLobby.Proofs.Room.Rolls

/-!
# The host goes round

With host rotation every match makes the next member host, in the order in which members joined,
and the first one follows the last.  A host who leaves is followed by the same member.

* `Room.seat`                     the members, counted round and round;
* `Room.successor_eq_seat`        the next member is the one in the next seat;
* `Room.playMatches`              matches one after another, each started and finished by its host;
* `Room.rotates_playMatches`      the hosts they have with rotation;
* `Room.leave_of_host`            who follows a host who leaves;
* `host_goes_round`               all this, in any room at any time.
-/

namespace RhythmLobby
namespace Room

/-! ## Seats -/

/-- the member in the `j`-th seat; after the last seat comes the first one again -/
def seat (r : Room) (j : Nat) : Option Int32 := r.ids[j % r.ids.length]?

variable {r r' : Room}

theorem seat_of_lt {j : Nat} (hj : j < r.ids.length) : r.seat j = some r.ids[j] := by
  rw [seat, Nat.mod_eq_of_lt hj, List.getElem?_eq_getElem hj]

theorem seat_congr (hids : r'.ids = r.ids) (j : Nat) : r'.seat j = r.seat j := by
  rw [seat, seat, hids]

theorem mem_of_seat {j : Nat} {user : Int32} (h : r.seat j = some user) : user ∈ r.ids :=
  List.mem_of_getElem? h

/-- as many seats as there are members, one after another, are all the members once round -/
theorem map_seat (r : Room) (a : Nat) :
    ((List.range r.ids.length).map fun j => r.seat (a + j)) = (r.ids.rotate a).map some := by
  refine List.ext_getElem (by simp) fun j hj hj' => ?_
  have hlt : j < r.ids.length := by simpa using hj
  have hround : (j + a) % r.ids.length < r.ids.length := Nat.mod_lt _ (by omega)
  rw [List.getElem_map, List.getElem_range, List.getElem_map, List.getElem_rotate, seat,
    Nat.add_comm a j, List.getElem?_eq_getElem hround]

/-! ## The next member -/

/-- whoever joined next comes next, and after the last one the first -/
theorem successor_of_split {before after : List Int32} {user : Int32}
    (hids : r.ids = before ++ user :: after) (hnodup : r.ids.Nodup) :
    r.successor user = (after ++ before).head? := by
  rw [hids, List.nodup_append] at hnodup
  obtain ⟨-, hafter, happart⟩ := hnodup
  have hbefore : ∀ v ∈ before, v ≠ user := fun v hv => happart v hv user (List.mem_cons_self ..)
  have hothers : ∀ v ∈ after ++ before, v ≠ user := by
    intro v hv
    rcases List.mem_append.mp hv with hv | hv
    · intro heq
      subst heq
      exact (List.nodup_cons.mp hafter).1 hv
    · exact hbefore v hv
  have hmem : r.hasMember user := hasMember_iff.mpr (hids ▸ by simp)
  have htake : r.ids.takeWhile (fun v => decide (v ≠ user)) = before := by
    rw [hids, List.takeWhile_append_of_pos fun v hv => decide_eq_true (hbefore v hv)]
    simp
  have hdrop : r.ids.dropWhile (fun v => decide (v ≠ user)) = user :: after := by
    rw [hids, List.dropWhile_append_of_pos fun v hv => decide_eq_true (hbefore v hv)]
    simp
  rw [successor, if_pos hmem]
  dsimp only
  rw [htake, hdrop, List.drop_succ_cons, List.drop_zero]
  cases hlist : after ++ before with
  | nil => rfl
  | cons v rest =>
    have hv : v ≠ user := hothers v (hlist ▸ List.mem_cons_self ..)
    exact List.find?_cons_of_pos (decide_eq_true hv)

theorem successor_eq_seat (hnodup : r.ids.Nodup) (htwo : 2 ≤ r.ids.length) {j : Nat}
    {user : Int32} (hseat : r.seat j = some user) : r.successor user = r.seat (j + 1) := by
  have hlt : j % r.ids.length < r.ids.length := Nat.mod_lt _ (by omega)
  rw [seat, Nat.add_mod, Nat.mod_eq_of_lt htwo]
  rw [seat] at hseat
  generalize j % r.ids.length = i at hseat hlt ⊢
  rw [List.getElem?_eq_getElem hlt, Option.some_inj] at hseat
  have hids : r.ids = r.ids.take i ++ user :: r.ids.drop (i + 1) := by
    rw [← hseat, List.getElem_cons_drop, List.take_append_drop]
  rw [successor_of_split hids hnodup]
  by_cases hlast : i + 1 = r.ids.length
  · rw [hlast, List.drop_length, List.nil_append, Nat.mod_self, List.head?_take, if_neg (by omega),
      List.head?_eq_getElem?]
  · rw [Nat.mod_eq_of_lt (by omega), List.head?_append, List.head?_drop,
      List.getElem?_eq_getElem (by omega)]
    rfl

/-- after a match with rotation, the member in the next seat is host, also if it is alone -/
theorem nextHost_eq_seat (hnodup : r.ids.Nodup) (hon : r.settings.hostRotation = true) {j : Nat}
    (hseat : r.seat j = some r.settings.hostId) :
    some (r.nextHost r.settings.hostId) = r.seat (j + 1) := by
  rw [nextHost, if_pos hon]
  by_cases htwo : 2 ≤ r.ids.length
  · have hlt : (j + 1) % r.ids.length < r.ids.length := Nat.mod_lt _ (by omega)
    rw [successor_eq_seat hnodup htwo hseat, seat, List.getElem?_eq_getElem hlt]
    rfl
  · -- the only member is in every seat, and nobody else comes next
    have hone : r.ids = [r.settings.hostId] := by
      have hmem := mem_of_seat hseat
      match hids : r.ids, hmem with
      | [v], hmem => rw [List.mem_singleton.mp hmem]
      | _ :: _ :: _, _ => simp [hids] at htwo
    have hids : r.ids = [] ++ r.settings.hostId :: [] := hone
    have hnone : r.successor r.settings.hostId = none := successor_of_split hids hnodup
    rw [hnone, seat, hone, List.length_singleton, Nat.mod_one]
    rfl

/-! ## Matches -/

/-- a match, started and finished by the host -/
def playMatch (r : Room) : Except RoomError Room := do
  let running ← r.start r.settings.hostId
  running.finish running.settings.hostId

/-- some matches one after another, and the hosts they have -/
def playMatches : Nat → Room → Except RoomError (List Int32 × Room)
  | 0, r => .ok ([], r)
  | k + 1, r => do
    let r' ← r.playMatch
    let (hosts, last) ← playMatches k r'
    return (r.settings.hostId :: hosts, last)

/-- nobody comes or goes in a match; what is set stays, but for the host -/
structure PlayedOn (r r' : Room) : Prop where
  closed : r'.closed = r.closed
  ids : r'.ids = r.ids
  settings : r'.settings = { r.settings with hostId := r'.settings.hostId }

theorem checkHost_host (hopen : r.closed = false) : r.checkHost r.settings.hostId = .ok () := by
  have hcheck : r.checkOpen = .ok () := if_neg (by simp [hopen])
  rw [checkHost, hcheck]
  exact if_pos rfl

theorem playMatch_eq_ok (hopen : r.closed = false) (hidle : r.settings.inProgress = false) :
    ∃ r', r.playMatch = .ok r' ∧ r.PlayedOn r' ∧
      r'.settings.hostId = r.nextHost r.settings.hostId := by
  let running : Room := { r with settings := { r.settings with inProgress := true } }
  have hstart : r.start r.settings.hostId = .ok running := by
    have hcheck : r.checkIdle = .ok () := if_neg (by simp [hidle])
    rw [start, checkHost_host hopen, hcheck]
    rfl
  let played : Room := { r with
    settings := { r.settings with inProgress := false, hostId := r.nextHost r.settings.hostId }
    members := r.members.map fun m => { m with ready := false } }
  have hfinish : running.finish r.settings.hostId = .ok played := by
    have hcheck : running.checkHost r.settings.hostId = .ok () :=
      checkHost_host (r := running) hopen
    rw [finish, hcheck]
    rfl
  refine ⟨played, ?_, ⟨rfl, (finish_ok hfinish).ids, ?_⟩, rfl⟩
  · rw [playMatch, hstart]
    exact hfinish
  · show ({ r.settings with inProgress := false, hostId := _ } : RoomSettings) = _
    rw [← hidle]

theorem PlayedOn.idle (h : r.PlayedOn r') (hidle : r.settings.inProgress = false) :
    r'.settings.inProgress = false := by
  rw [h.settings]
  exact hidle

theorem PlayedOn.trans {r'' : Room} (h : r.PlayedOn r') (h' : r'.PlayedOn r'') :
    r.PlayedOn r'' where
  closed := h'.closed.trans h.closed
  ids := h'.ids.trans h.ids
  settings := by rw [h'.settings, h.settings]

theorem playMatches_succ {k : Nat} {last : Room} {hosts : List Int32}
    (h : r.playMatch = .ok r') (hlast : playMatches k r' = .ok (hosts, last)) :
    playMatches (k + 1) r = .ok (r.settings.hostId :: hosts, last) := by
  rw [playMatches, h]
  show (playMatches k r').bind _ = _
  rw [hlast]
  rfl

theorem stays_playMatches (hopen : r.closed = false) (hidle : r.settings.inProgress = false)
    (hoff : r.settings.hostRotation = false) (k : Nat) : ∃ r',
      playMatches k r = .ok (List.replicate k r.settings.hostId, r') ∧ r.PlayedOn r' ∧
        r'.settings.hostId = r.settings.hostId := by
  induction k generalizing r with
  | zero => exact ⟨r, rfl, ⟨rfl, rfl, rfl⟩, rfl⟩
  | succ k ih =>
    obtain ⟨r₁, hmatch, hplayed, hhost⟩ := playMatch_eq_ok hopen hidle
    rw [nextHost, hoff, if_neg Bool.false_ne_true] at hhost
    have hoff₁ : r₁.settings.hostRotation = false := by
      rw [hplayed.settings]
      exact hoff
    obtain ⟨r₂, hmore, hplayed₂, hhost₂⟩ :=
      ih (hplayed.closed.trans hopen) (hplayed.idle hidle) hoff₁
    rw [hhost] at hmore hhost₂
    exact ⟨r₂, playMatches_succ hmatch hmore, hplayed.trans hplayed₂, hhost₂⟩

theorem rotates_playMatches (hopen : r.closed = false) (hidle : r.settings.inProgress = false)
    (hnodup : r.ids.Nodup) (hon : r.settings.hostRotation = true) {i : Nat}
    (hseat : r.seat i = some r.settings.hostId) (k : Nat) : ∃ hosts r',
      playMatches k r = .ok (hosts, r') ∧ r.PlayedOn r' ∧
        hosts.map some = ((List.range k).map fun j => r.seat (i + j)) ∧
        some r'.settings.hostId = r.seat (i + k) := by
  induction k generalizing r i with
  | zero => exact ⟨[], r, rfl, ⟨rfl, rfl, rfl⟩, rfl, hseat.symm⟩
  | succ k ih =>
    obtain ⟨r₁, hmatch, hplayed, hhost⟩ := playMatch_eq_ok hopen hidle
    have hseats : ∀ j, r₁.seat j = r.seat j := seat_congr hplayed.ids
    have hnext := nextHost_eq_seat hnodup hon hseat
    rw [← hhost, ← hseats] at hnext
    have hon₁ : r₁.settings.hostRotation = true := by
      rw [hplayed.settings]
      exact hon
    obtain ⟨hosts, r₂, hmore, hplayed₂, hhosts, hlast⟩ := ih (hplayed.closed.trans hopen)
      (hplayed.idle hidle) (hplayed.ids ▸ hnodup) hon₁ hnext.symm
    refine ⟨_, r₂, playMatches_succ hmatch hmore, hplayed.trans hplayed₂, ?_, ?_⟩
    · rw [List.map_cons, hhosts, ← hseat, List.range_succ_eq_map, List.map_cons, List.map_map]
      refine congrArg _ (List.map_congr_left fun j _ => ?_)
      rw [hseats, Function.comp_apply, Nat.succ_eq_one_add, Nat.add_assoc]
    · rw [hlast, hseats, Nat.add_assoc, Nat.add_comm 1 k]

theorem perm_of_rounds {hosts : List Int32} {i k : Nat}
    (hhosts : hosts.map some = ((List.range k).map fun j => r.seat (i + j))) {j : Nat}
    (hj : j + r.ids.length ≤ k) : ((hosts.drop j).take r.ids.length).Perm r.ids := by
  have hround : ((hosts.drop j).take r.ids.length).map some = (r.ids.rotate (i + j)).map some := by
    rw [List.map_take, List.map_drop, hhosts, ← map_seat]
    refine List.ext_getElem (by simp; omega) fun m hm hm' => ?_
    simp only [List.getElem_take, List.getElem_drop, List.getElem_map, List.getElem_range]
    rw [Nat.add_assoc]
  rw [(List.map_inj_right fun _ _ => Option.some.inj).mp hround]
  exact List.rotate_perm _ _

/-! ## Members leave -/

theorem leave_of_host (hr : r.Sound) (hopen : r.closed = false) (htwo : 2 ≤ r.ids.length) {i : Nat}
    (hseat : r.seat i = some r.settings.hostId) : ∃ heir, r.seat (i + 1) = some heir ∧
      r.leave r.settings.hostId =
        (.hostPassed heir, (r.without r.settings.hostId).hostedBy heir) := by
  have hlt : (i + 1) % r.ids.length < r.ids.length := Nat.mod_lt _ (by omega)
  have hheir : r.seat (i + 1) = some r.ids[(i + 1) % r.ids.length] := List.getElem?_eq_getElem hlt
  have hsuccessor := successor_eq_seat hr.nodup htwo hseat
  rw [hheir] at hsuccessor
  refine ⟨_, hheir, ?_⟩
  obtain ⟨hmem, hne⟩ := successor_mem hsuccessor
  have hc : ¬ (r.closed || !r.hasMember r.settings.hostId) = true := by
    rw [hopen, hasMember_iff.mpr (mem_of_seat hseat)]
    exact Bool.false_ne_true
  rw [leave, if_neg hc]
  dsimp only
  cases hrest : (r.without r.settings.hostId).ids with
  | nil =>
    have hstays : r.ids[(i + 1) % r.ids.length] ∈ (r.without r.settings.hostId).ids := by
      rw [ids_without]
      exact List.mem_filter.mpr ⟨hmem, decide_eq_true hne⟩
    rw [hrest] at hstays
    cases hstays
  | cons first rest =>
    dsimp only
    rw [if_pos rfl, hsuccessor]
    rfl

/-- the host of an open room stays host when somebody else leaves -/
theorem host_leave_of_guest {user : Int32} (hguest : user ≠ r.settings.hostId) :
    (r.leave user).2.settings.hostId = r.settings.hostId := by
  rcases leave_of_guest (Ne.symm hguest) with h | ⟨-, h⟩ | h
  · rw [h]
  · rw [h]
    rfl
  · rw [h]
    rfl

/-! ## The law -/

/-- The host, in the `i`-th of `n` seats, is followed by the members in the next seats.  With
rotation `k` matches make the one in the seat `i + k` host, so that everybody is host once in any
`n` of them, and without it the host stays.  If the host leaves, the one in the next seat is host,
whom a match with rotation would have made host, too. -/
structure RoundRobin (r : Room) (i : Nat) : Prop where
  host : r.seat i = some r.settings.hostId
  rotates : r.settings.inProgress = false → r.settings.hostRotation = true → ∀ k, ∃ hosts r',
    r.playMatches k = .ok (hosts, r') ∧ r'.ids = r.ids ∧
      hosts.map some = ((List.range k).map fun j => r.seat (i + j)) ∧
      some r'.settings.hostId = r.seat (i + k) ∧
      ∀ j, j + r.ids.length ≤ k → ((hosts.drop j).take r.ids.length).Perm r.ids
  stays : r.settings.inProgress = false → r.settings.hostRotation = false → ∀ k, ∃ r',
    r.playMatches k = .ok (List.replicate k r.settings.hostId, r') ∧ r'.ids = r.ids ∧
      r'.settings.hostId = r.settings.hostId
  passes : 2 ≤ r.ids.length → ∃ heir r', r.seat (i + 1) = some heir ∧
    r.leave r.settings.hostId = (.hostPassed heir, r') ∧ r'.settings.hostId = heir ∧
      r'.ids = r.ids.filter (· ≠ r.settings.hostId) ∧
      ∃ r'', Room.finish { r with
        settings := { r.settings with inProgress := true, hostRotation := true }
      } r.settings.hostId = .ok r'' ∧ r''.settings.hostId = heir
  remains : ∀ user, user ≠ r.settings.hostId →
    (r.leave user).2.settings.hostId = r.settings.hostId

/-- a running match with rotation ends with the member in the next seat as host -/
theorem rotating_finish (hopen : r.closed = false) (hnodup : r.ids.Nodup) {i : Nat}
    (hseat : r.seat i = some r.settings.hostId) : ∃ r', Room.finish { r with
      settings := { r.settings with inProgress := true, hostRotation := true }
    } r.settings.hostId = .ok r' ∧ some r'.settings.hostId = r.seat (i + 1) := by
  let running : Room := { r with
    settings := { r.settings with inProgress := true, hostRotation := true } }
  have hcheck : running.checkHost r.settings.hostId = .ok () := checkHost_host (r := running) hopen
  refine ⟨{ running with
    settings := { running.settings with
      inProgress := false, hostId := running.nextHost r.settings.hostId }
    members := running.members.map fun m => { m with ready := false } }, ?_, ?_⟩
  · show running.finish r.settings.hostId = _
    rw [finish, hcheck]
    rfl
  · exact nextHost_eq_seat (r := running) hnodup rfl hseat

theorem Sound.roundRobin (hr : r.Sound) (hopen : r.closed = false) :
    ∃ i < r.ids.length, r.RoundRobin i := by
  obtain ⟨-, -, hmem⟩ := hr.inhabited hopen
  obtain ⟨i, hi, hhost⟩ := List.getElem_of_mem hmem
  have hseat : r.seat i = some r.settings.hostId := by rw [seat_of_lt hi, hhost]
  refine ⟨i, hi, hseat, fun hidle hon k => ?_, fun hidle hoff k => ?_, fun htwo => ?_,
    fun user hguest => host_leave_of_guest hguest⟩
  · obtain ⟨hosts, r', hplay, hplayed, hhosts, hlast⟩ :=
      rotates_playMatches hopen hidle hr.nodup hon hseat k
    exact ⟨hosts, r', hplay, hplayed.ids, hhosts, hlast, fun j hj => perm_of_rounds hhosts hj⟩
  · obtain ⟨r', hplay, hplayed, hlast⟩ := stays_playMatches hopen hidle hoff k
    exact ⟨r', hplay, hplayed.ids, hlast⟩
  · obtain ⟨heir, hheir, hleave⟩ := leave_of_host hr hopen htwo hseat
    obtain ⟨r'', hfinish, hnext⟩ := rotating_finish hopen hr.nodup hseat
    refine ⟨heir, _, hheir, hleave, rfl, ids_without r _, r'', hfinish, ?_⟩
    exact Option.some.inj (hnext.trans hheir)

end Room

/-- In an open room that has been made with valid settings and then undergone any moves, the host
goes round. -/
theorem host_goes_round (id : Int32) (settings : RoomSettings) (password : Option String)
    (host : PlayerProfile)
    (hvalid : checkSettings settings.name settings.maxPlayers 1 = .ok ()) (moves : List RoomMove)
    (hopen : ((Room.create id settings password host).after moves).closed = false) :
    ∃ i < ((Room.create id settings password host).after moves).ids.length,
      ((Room.create id settings password host).after moves).RoundRobin i :=
  (Room.sound_after (Room.sound_create hvalid) moves).roundRobin hopen

namespace RoomMove

/-- three members with rotation, of whom the one who joined last has become host -/
def gathering : List RoomMove :=
  [.updateSettings 7 { SettingsPatch.empty with hostRotation := some true },
    .join ⟨8, "bea", "", "", ""⟩ none, .join ⟨9, "cyd", "", "", ""⟩ none, .transferHost 7 9]

end RoomMove

open RoomMove in
theorem host_goes_round_gathering :
    let r := (Room.create 1 den none ⟨7, "ada", "", "", ""⟩).after gathering
    r.ids = [7, 8, 9] ∧ r.settings.hostId = 9 ∧ r.settings.hostRotation = true ∧
      ∃ i < r.ids.length, r.RoundRobin i := by
  intro r
  have hvalid : checkSettings den.name den.maxPlayers 1 = .ok () := by decide +kernel
  have hopen : r.closed = false := by decide +kernel
  exact ⟨by decide +kernel, by decide +kernel, by decide +kernel,
    host_goes_round 1 den none ⟨7, "ada", "", "", ""⟩ hvalid gathering hopen⟩

open RoomMove in
example : ((Room.create 1 den none ⟨7, "ada", "", "", ""⟩).after gathering |>.playMatches 4).map
    Prod.fst = .ok [9, 7, 8, 9] := by decide +kernel

end RhythmLobby
