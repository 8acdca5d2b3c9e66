import Mathlib.Data.List.DropRight
import RhythmLobby.Proofs.Room.Reach
import RhythmLobby.Proofs.Room.Rolls

/-!
# Members are what the history of the room has made of them

The chronicle of a room has all moves that were accepted, one after another.  What is known of a
member follows from the part of it that comes after the member's last join.

* `chronicle`              the moves that were accepted;
* `RoomMove.upTo`, `RoomMove.since`   the chronicle up to a user's last join, and the rest of it;
* `RoomMove.Stands`        something is brought about and not undone later;
* `Member.AsTold`          a member is what the chronicle says;
* `RoomMove.members_run`   what an accepted move makes of the members;
* `Room.AsTold.run`        every move keeps members and chronicle together;
* `members_are_as_told`    so does any list of moves.
-/

namespace RhythmLobby

/-! ## Chronicles -/

/-- the move was accepted -/
def RoomAnswer.accepts : RoomAnswer → Bool
  | refused _ => false
  | left .notMember => false
  | _ => true

/-- those of some moves that are accepted when they are made one after another -/
def chronicle {σ : Type} (run : RoomMove → σ → RoomAnswer × σ) : σ → List RoomMove → List RoomMove
  | _, [] => []
  | s, x :: moves =>
    if (run x s).1.accepts then x :: chronicle run (run x s).2 moves
    else chronicle run (run x s).2 moves

namespace RoomMove

/-! ## What moves mean for a user -/

def joins (user : Int32) : RoomMove → Bool
  | join profile _ => profile.userId = user
  | _ => false

/-- after the move the user is not ready -/
def unreadies (user : Int32) : RoomMove → Bool
  | setReady v ready => v = user && !ready
  | changeMap _ _ => true
  | finish _ => true
  | _ => false

/-- after the move the user has the map -/
def findsMap (user : Int32) : RoomMove → Bool
  | setHasMap v hasMap => v = user && hasMap
  | changeMap _ _ => true
  | _ => false

/-- the user is given a win -/
def credits (user : Int32) : RoomMove → Bool
  | addWin v => v = user
  | _ => false

/-- the modifiers that the user chooses with the move -/
def choice? (user : Int32) : RoomMove → Option Int64
  | setModifiers v modifiers => if v = user then some modifiers else none
  | _ => none

/-! ## Parts of a chronicle -/

/-- the chronicle up to the last join of a user; nothing if it never joined -/
def upTo (user : Int32) (log : List RoomMove) : List RoomMove := log.rdropWhile (!joins user ·)

/-- the chronicle after the last join of a user; all of it if it never joined -/
def since (user : Int32) (log : List RoomMove) : List RoomMove := log.rtakeWhile (!joins user ·)

/-- something is brought about by a move and not undone later -/
def Stands (x : RoomMove) (undoes : RoomMove → Bool) (log : List RoomMove) : Prop :=
  ∃ before after, log = before ++ x :: after ∧ ∀ y ∈ after, undoes y = false

/-- the modifiers that a user chose last -/
def choice (user : Int32) (log : List RoomMove) : Int64 :=
  ((log.filterMap (choice? user)).getLast?).getD 0

variable {user : Int32} {log : List RoomMove} {x : RoomMove}

theorem upTo_append_since (user : Int32) (log : List RoomMove) :
    upTo user log ++ since user log = log := List.rdropWhile_append_rtakeWhile

theorem upTo_concat (user : Int32) (log : List RoomMove) (x : RoomMove) :
    upTo user (log ++ [x]) = if x.joins user then log ++ [x] else upTo user log := by
  rw [upTo, List.rdropWhile_concat]
  cases x.joins user <;> rfl

theorem since_concat (user : Int32) (log : List RoomMove) (x : RoomMove) :
    since user (log ++ [x]) = if x.joins user then [] else since user log ++ [x] := by
  rw [since, List.rtakeWhile_concat]
  cases x.joins user <;> rfl

theorem length_upTo_le (user : Int32) (log : List RoomMove) :
    (upTo user log).length ≤ log.length := (List.rdropWhile_prefix _ _).length_le

theorem not_stands_nil {undoes : RoomMove → Bool} : ¬ Stands x undoes [] := by
  intro h
  obtain ⟨before, after, heq, -⟩ := h
  simp at heq

/-- the last move decides, and if it has no say, what stood before stands -/
theorem stands_concat {y : RoomMove} {undoes : RoomMove → Bool} :
    Stands y undoes (log ++ [x]) ↔ x = y ∨ (Stands y undoes log ∧ undoes x = false) := by
  constructor
  · intro h
    obtain ⟨before, after, heq, hafter⟩ := h
    rcases List.eq_nil_or_concat after with rfl | ⟨after, z, rfl⟩
    · exact .inl (List.append_inj_right' heq rfl |> List.singleton_inj.mp)
    · rw [List.concat_eq_append] at heq hafter
      rw [← List.cons_append, ← List.append_assoc] at heq
      obtain ⟨rfl, hz⟩ := List.append_inj' heq rfl
      cases hz
      refine .inr ⟨⟨before, after, rfl, fun y hy => hafter y ?_⟩, hafter x ?_⟩
      · exact List.mem_append_left _ hy
      · exact List.mem_append_right _ (List.mem_singleton_self _)
  · rintro (rfl | ⟨⟨before, after, rfl, hafter⟩, hx⟩)
    · exact ⟨log, [], rfl, nofun⟩
    · refine ⟨before, after ++ [x], by simp, fun z hz => ?_⟩
      rcases List.mem_append.mp hz with hz | hz
      · exact hafter z hz
      · rwa [List.mem_singleton.mp hz]

theorem choice_concat (user : Int32) (log : List RoomMove) (x : RoomMove) :
    choice user (log ++ [x]) = (x.choice? user).getD (choice user log) := by
  rw [choice, List.filterMap_append]
  cases hx : x.choice? user with
  | none => simp [hx, choice]
  | some k => simp [hx]

end RoomMove

open RoomMove

/-! ## Members as told -/

/-- The member is what the chronicle says: it came with its last join, or is the host that the room
was made with, and has not left since.  From then on it is ready if it said so and nothing has
undone that, and so with the map; it has the modifiers that it chose last, and the wins it was
given, as many as can be counted. -/
structure Member.AsTold (host : PlayerProfile) (log : List RoomMove) (m : Member) : Prop where
  profile : (∃ guess, (upTo m.id log).getLast? = some (.join m.profile guess)) ∨
    (upTo m.id log = [] ∧ m.profile = host)
  stays : .leave m.id ∉ since m.id log
  ready : m.ready = true ↔ Stands (.setReady m.id true) (unreadies m.id) (since m.id log)
  hasMap : m.hasMap = false ↔ Stands (.setHasMap m.id false) (findsMap m.id) (since m.id log)
  modifiers : m.modifiers = choice m.id (since m.id log)
  wins : m.wins.toNat = min ((since m.id log).countP (credits m.id)) (UInt32.size - 1)

namespace RoomMove

/-- what an accepted move makes of a member who stays -/
def mark : RoomMove → Member → Member
  | setReady user ready, m => if m.id = user then { m with ready := ready } else m
  | setHasMap user hasMap, m => if m.id = user then { m with hasMap := hasMap } else m
  | setModifiers user modifiers, m => if m.id = user then { m with modifiers := modifiers } else m
  | addWin user, m => if m.id = user then m.win else m
  | changeMap _ _, m => { m with ready := false, hasMap := true }
  | finish _, m => { m with ready := false }
  | _, m => m

/-- whether a member stays when the move is accepted -/
def keeps : RoomMove → Member → Bool
  | leave user, m => m.id ≠ user
  | close _, _ => false
  | _, _ => true

/-- who comes when the move is accepted -/
def brings : RoomMove → List Member
  | join profile _ => [.newcomer profile]
  | _ => []

variable (x : RoomMove) (m : Member)

theorem mark_profile : (x.mark m).profile = m.profile := by
  cases x with
  | setReady user ready => by_cases hu : m.id = user <;> simp [mark, hu]
  | setHasMap user hasMap => by_cases hu : m.id = user <;> simp [mark, hu]
  | setModifiers user modifiers => by_cases hu : m.id = user <;> simp [mark, hu]
  | addWin user => by_cases hu : m.id = user <;> simp [mark, hu, Member.win]
  | _ => rfl

theorem mark_id : (x.mark m).id = m.id := congrArg PlayerProfile.userId (x.mark_profile m)

theorem mark_ready : (x.mark m).ready = true ↔
    x = .setReady m.id true ∨ (m.ready = true ∧ x.unreadies m.id = false) := by
  cases x with
  | setReady user ready =>
    by_cases hu : m.id = user
    · subst hu
      cases ready <;> simp [mark, unreadies]
    · simp [mark, unreadies, hu, Ne.symm hu]
  | setHasMap user hasMap => by_cases hu : m.id = user <;> simp [mark, unreadies, hu]
  | setModifiers user modifiers => by_cases hu : m.id = user <;> simp [mark, unreadies, hu]
  | addWin user => by_cases hu : m.id = user <;> simp [mark, unreadies, hu, Member.win]
  | _ => simp [mark, unreadies]

theorem mark_hasMap : (x.mark m).hasMap = false ↔
    x = .setHasMap m.id false ∨ (m.hasMap = false ∧ x.findsMap m.id = false) := by
  cases x with
  | setHasMap user hasMap =>
    by_cases hu : m.id = user
    · subst hu
      cases hasMap <;> simp [mark, findsMap]
    · simp [mark, findsMap, hu, Ne.symm hu]
  | setReady user ready => by_cases hu : m.id = user <;> simp [mark, findsMap, hu]
  | setModifiers user modifiers => by_cases hu : m.id = user <;> simp [mark, findsMap, hu]
  | addWin user => by_cases hu : m.id = user <;> simp [mark, findsMap, hu, Member.win]
  | _ => simp [mark, findsMap]

theorem mark_modifiers : (x.mark m).modifiers = (x.choice? m.id).getD m.modifiers := by
  cases x with
  | setModifiers user modifiers =>
    by_cases hu : m.id = user
    · simp [mark, choice?, hu]
    · simp [mark, choice?, hu, Ne.symm hu]
  | setReady user ready => by_cases hu : m.id = user <;> simp [mark, choice?, hu]
  | setHasMap user hasMap => by_cases hu : m.id = user <;> simp [mark, choice?, hu]
  | addWin user => by_cases hu : m.id = user <;> simp [mark, choice?, hu, Member.win]
  | _ => rfl

theorem mark_of_credits (h : x.credits m.id = true) : x.mark m = m.win := by
  cases x with
  | addWin user => exact if_pos (of_decide_eq_true h).symm
  | _ => cases h

theorem mark_wins (h : x.credits m.id = false) : (x.mark m).wins = m.wins := by
  cases x with
  | addWin user =>
    have hu : m.id ≠ user := fun hu => of_decide_eq_false h hu.symm
    simp [mark, hu]
  | setReady user ready => by_cases hu : m.id = user <;> simp [mark, hu]
  | setHasMap user hasMap => by_cases hu : m.id = user <;> simp [mark, hu]
  | setModifiers user modifiers => by_cases hu : m.id = user <;> simp [mark, hu]
  | _ => rfl

end RoomMove

namespace Member.AsTold

variable {host : PlayerProfile} {log : List RoomMove} {m : Member} {x : RoomMove}

theorem of_since (hprofile : (∃ guess, (upTo m.id log).getLast? = some (.join m.profile guess)) ∨
    (upTo m.id log = [] ∧ m.profile = host)) (hsince : since m.id log = [])
    (hnew : m = newcomer m.profile) : m.AsTold host log where
  profile := hprofile
  stays := by
    rw [hsince]
    exact List.not_mem_nil
  ready := by
    rw [hsince, hnew]
    exact ⟨nofun, fun h => (not_stands_nil h).elim⟩
  hasMap := by
    rw [hsince, hnew]
    exact ⟨nofun, fun h => (not_stands_nil h).elim⟩
  modifiers := by
    rw [hsince, hnew]
    rfl
  wins := by
    rw [hsince, hnew]
    rfl

theorem made (host : PlayerProfile) : (newcomer host).AsTold host [] :=
  of_since (.inr ⟨rfl, rfl⟩) rfl rfl

theorem joined (host profile : PlayerProfile) (guess : Option String) (log : List RoomMove) :
    (newcomer profile).AsTold host (log ++ [.join profile guess]) := by
  have hjoins : (RoomMove.join profile guess).joins (newcomer profile).id = true :=
    decide_eq_true rfl
  refine of_since (.inl ⟨guess, ?_⟩) ?_ rfl
  · rw [upTo_concat, if_pos hjoins, List.getLast?_concat]
    rfl
  · rw [since_concat, if_pos hjoins]

theorem mark (h : m.AsTold host log) (hjoins : x.joins m.id = false) (hkeeps : x.keeps m = true) :
    (x.mark m).AsTold host (log ++ [x]) := by
  have hid := x.mark_id m
  have hupTo : upTo m.id (log ++ [x]) = upTo m.id log := by rw [upTo_concat, hjoins]; rfl
  have hsince : since m.id (log ++ [x]) = since m.id log ++ [x] := by rw [since_concat, hjoins]; rfl
  refine ⟨?_, ?_, ?_, ?_, ?_, ?_⟩ <;> rw [hid]
  · rw [hupTo, x.mark_profile]
    exact h.profile
  · rw [hsince, List.mem_append, List.mem_singleton]
    rintro (hleave | rfl)
    · exact h.stays hleave
    · simp [RoomMove.keeps] at hkeeps
  · rw [hsince, stands_concat, x.mark_ready, h.ready]
  · rw [hsince, stands_concat, x.mark_hasMap, h.hasMap]
  · rw [hsince, choice_concat, x.mark_modifiers, h.modifiers]
  · rw [hsince, List.countP_append, List.countP_singleton]
    cases hcredits : x.credits m.id with
    | true =>
      rw [x.mark_of_credits m hcredits, wins_win, h.wins, if_pos rfl]
      omega
    | false =>
      rw [x.mark_wins m hcredits, h.wins, if_neg Bool.false_ne_true, Nat.add_zero]

theorem unique {m' : Member} (h : m.AsTold host log) (h' : m'.AsTold host log)
    (hid : m'.id = m.id) : m' = m := by
  have hprofile : m'.profile = m.profile := by
    have hlast := h'.profile
    rw [hid] at hlast
    rcases h.profile with ⟨guess, hm⟩ | ⟨hm, hhost⟩ <;>
      rcases hlast with ⟨guess', hm'⟩ | ⟨hm', hhost'⟩
    · rw [hm, Option.some_inj] at hm'
      injection hm' with hsame
      exact hsame.symm
    · rw [hm'] at hm
      cases hm
    · rw [hm] at hm'
      cases hm'
    · rw [hhost, hhost']
  have hready : m'.ready = m.ready := by
    rw [Bool.eq_iff_iff, h.ready, h'.ready, hid]
  have hmap : m'.hasMap = m.hasMap := by
    rw [← Bool.not_inj_iff, Bool.eq_iff_iff, Bool.not_eq_true', Bool.not_eq_true', h.hasMap,
      h'.hasMap, hid]
  have hmodifiers : m'.modifiers = m.modifiers := by rw [h.modifiers, h'.modifiers, hid]
  have hwins : m'.wins = m.wins := UInt32.toNat.inj (by rw [h.wins, h'.wins, hid])
  show (⟨m'.profile, m'.modifiers, m'.wins, m'.ready, m'.hasMap⟩ : Member) = m
  rw [hprofile, hmodifiers, hwins, hready, hmap]

end Member.AsTold

/-! ## Moves -/

namespace RoomAnswer

variable {α σ : Type} {s : σ} {given : α → RoomAnswer} {y : Except RoomError (α × σ)}

theorem attempt_accepts (h : (attempt s given y).1.accepts = true) :
    ∃ a s', y = .ok (a, s') ∧ (attempt s given y).2 = s' := by
  cases y with
  | error e => cases h
  | ok p => exact ⟨p.1, p.2, rfl, rfl⟩

theorem attempt_map_accepts {y : Except RoomError σ} {given : Unit → RoomAnswer}
    (h : (attempt s given (y.map (Prod.mk ()))).1.accepts = true) :
    ∃ s', y = .ok s' ∧ (attempt s given (y.map (Prod.mk ()))).2 = s' := by
  cases y with
  | error e => cases h
  | ok s' => exact ⟨s', rfl, rfl⟩

theorem attempt_refuses (hgiven : ∀ a, (given a).accepts = true)
    (h : (attempt s given y).1.accepts = false) : (attempt s given y).2 = s := by
  cases y with
  | error e => rfl
  | ok p =>
    rw [show (attempt s given (.ok p)).1 = given p.1 from rfl, hgiven] at h
    cases h

end RoomAnswer

namespace RoomMove
open RoomAnswer (attempt_accepts attempt_map_accepts attempt_refuses)

variable {r : Room} {x : RoomMove}

theorem run_refused (h : (x.run r).1.accepts = false) : (x.run r).2 = r := by
  cases x with
  | publish => rfl
  | leave user =>
    cases hl : (r.leave user).1 with
    | notMember => exact Room.eq_of_notMember (Prod.ext hl rfl)
    | _ =>
      rw [run, hl] at h
      cases h
  | _ => exact attempt_refuses (fun _ => rfl) h

theorem map_modify (hkeeps : ∀ m, x.keeps m = true) (hbrings : x.brings = [])
    (l : List Member) : (l.filter x.keeps).map x.mark ++ x.brings = l.map x.mark := by
  rw [hbrings, List.append_nil, List.filter_eq_self.mpr fun m _ => hkeeps m]

theorem map_same (hkeeps : ∀ m, x.keeps m = true) (hbrings : x.brings = [])
    (hmark : ∀ m, x.mark m = m) (l : List Member) :
    (l.filter x.keeps).map x.mark ++ x.brings = l := by
  rw [map_modify hkeeps hbrings, List.map_congr_left fun m _ => hmark m, List.map_id']

theorem members_attempt {user : Int32} {f : Member → Member} {given : PlayerRecord → RoomAnswer}
    (h : (RoomAnswer.attempt r given (r.modifyMember user f)).1.accepts = true) :
    (RoomAnswer.attempt r given (r.modifyMember user f)).2.members =
      r.members.map fun m => if m.id = user then f m else m := by
  obtain ⟨record, r', hmodify, hr'⟩ := attempt_accepts h
  obtain ⟨-, -, -, rfl⟩ := Room.modifyMember_inv hmodify
  rw [hr']
  rfl

/-- Those who are kept when a move is accepted bear its mark, and behind them stands whoever
comes. -/
theorem members_run (h : (x.run r).1.accepts = true) :
    (x.run r).2.members = (r.members.filter x.keeps).map x.mark ++ x.brings := by
  cases x with
  | publish => exact (map_same (fun _ => rfl) rfl (fun _ => rfl) _).symm
  | join profile guess =>
    obtain ⟨record, r', hjoin, hr'⟩ := attempt_accepts h
    obtain ⟨-, -, -, -, -, rfl⟩ := Room.join_inv hjoin
    have hall : r.members.filter (join profile guess).keeps = r.members :=
      List.filter_eq_self.mpr fun _ _ => rfl
    rw [run, hr', hall]
    exact congrArg (· ++ _) (List.map_id' _).symm
  | leave user =>
    rw [run] at h ⊢
    rcases r.leave_cases user with hl | ⟨-, -, ⟨-, hl⟩ | ⟨-, hl | ⟨host, hl⟩⟩⟩
    · rw [hl] at h
      cases h
    all_goals
      rw [hl]
      exact ((List.append_nil _).trans (List.map_id' _)).symm
  | setReady user ready =>
    rw [map_modify (fun _ => rfl) rfl]
    exact members_attempt h
  | setHasMap user hasMap =>
    rw [map_modify (fun _ => rfl) rfl]
    exact members_attempt h
  | setModifiers user modifiers =>
    rw [map_modify (fun _ => rfl) rfl]
    exact members_attempt h
  | addWin user =>
    rw [map_modify (fun _ => rfl) rfl]
    exact members_attempt h
  | updateSettings caller patch =>
    obtain ⟨r', hset, hr'⟩ := attempt_map_accepts h
    obtain ⟨-, -, -, -, rfl⟩ := Room.updateSettings_inv hset
    rw [run, hr', map_same (fun _ => rfl) rfl fun _ => rfl]
  | changeMap caller map =>
    obtain ⟨r', hset, hr'⟩ := attempt_map_accepts h
    obtain ⟨-, -, -, rfl⟩ := Room.changeMap_inv hset
    rw [run, hr', map_modify (fun _ => rfl) rfl]
    rfl
  | start caller =>
    obtain ⟨r', hset, hr'⟩ := attempt_map_accepts h
    obtain ⟨-, -, -, rfl⟩ := Room.start_inv hset
    rw [run, hr', map_same (fun _ => rfl) rfl fun _ => rfl]
  | finish caller =>
    obtain ⟨r', hset, hr'⟩ := attempt_map_accepts h
    obtain ⟨-, -, -, rfl⟩ := Room.finish_inv hset
    rw [run, hr', map_modify (fun _ => rfl) rfl]
    rfl
  | transferHost caller heir =>
    obtain ⟨r', hset, hr'⟩ := attempt_map_accepts h
    obtain ⟨-, -, -, rfl⟩ := Room.transferHost_inv hset
    rw [run, hr', map_same (fun _ => rfl) rfl fun _ => rfl]
    rfl
  | close caller =>
    obtain ⟨members, r', hclose, hr'⟩ := attempt_accepts h
    obtain ⟨-, -, rfl⟩ := Room.close_ok hclose
    have hnone : r.members.filter (close caller).keeps = [] :=
      List.filter_eq_nil_iff.mpr fun _ _ => Bool.false_ne_true
    rw [run, hr', hnone]
    rfl

theorem joins_of_accepts (h : (x.run r).1.accepts = true) {user : Int32} (hmem : user ∈ r.ids) :
    x.joins user = false := by
  cases x with
  | join profile guess =>
    obtain ⟨record, r', hjoin, -⟩ := attempt_accepts h
    obtain ⟨-, hnew, -⟩ := Room.join_inv hjoin
    apply decide_eq_false
    intro heq
    subst heq
    exact hnew hmem
  | _ => rfl

end RoomMove

/-! ## Rooms as told -/

/-- all members are what the chronicle says, and are listed in the order of their last joins -/
structure Room.AsTold (host : PlayerProfile) (log : List RoomMove) (r : Room) : Prop where
  members : ∀ m ∈ r.members, m.AsTold host log
  order : r.ids.Pairwise fun u v => (upTo u log).length < (upTo v log).length

namespace Room.AsTold

variable {host : PlayerProfile} {log : List RoomMove} {r : Room} {x : RoomMove}

theorem made (id : Int32) (settings : RoomSettings) (password : Option String)
    (host : PlayerProfile) : (Room.create id settings password host).AsTold host [] where
  members m hm := by
    rw [List.mem_singleton.mp hm]
    exact .made host
  order := List.pairwise_singleton _ _

theorem run (h : r.AsTold host log) (hx : (x.run r).1.accepts = true) :
    (x.run r).2.AsTold host (log ++ [x]) := by
  have hmembers := members_run hx
  have hold : ∀ m ∈ r.members, x.joins m.id = false := fun m hm =>
    joins_of_accepts hx (List.mem_map.mpr ⟨m, hm, rfl⟩)
  refine ⟨fun m hm => ?_, ?_⟩
  · rw [hmembers, List.mem_append] at hm
    rcases hm with hm | hm
    · obtain ⟨m, hkept, rfl⟩ := List.mem_map.mp hm
      obtain ⟨hin, hkeeps⟩ := List.mem_filter.mp hkept
      exact (h.members m hin).mark (hold m hin) hkeeps
    · cases x with
      | join profile guess =>
        rw [List.mem_singleton.mp hm]
        exact .joined host profile guess log
      | _ => cases hm
  · have hids : (x.run r).2.ids = (r.members.filter x.keeps).map Member.id ++
        x.brings.map Member.id := by
      rw [Room.ids, hmembers, List.map_append, List.map_map]
      exact congrArg (· ++ _) (List.map_congr_left fun m _ => x.mark_id m)
    have hkept : ∀ u ∈ (r.members.filter x.keeps).map Member.id,
        upTo u (log ++ [x]) = upTo u log := by
      intro u hu
      obtain ⟨m, hm, rfl⟩ := List.mem_map.mp hu
      rw [upTo_concat, hold m (List.mem_filter.mp hm).1]
      rfl
    rw [hids, List.pairwise_append]
    refine ⟨?_, ?_, fun u hu v hv => ?_⟩
    · refine (h.order.sublist (List.filter_sublist.map _)).imp_of_mem fun hu hv hlt => ?_
      rwa [hkept _ hu, hkept _ hv]
    · cases x <;> first | exact List.Pairwise.nil | exact List.pairwise_singleton _ _
    · cases x with
      | join profile guess =>
        have hjoins : (RoomMove.join profile guess).joins v = true :=
          decide_eq_true (List.mem_singleton.mp hv).symm
        rw [hkept u hu, upTo_concat, if_pos hjoins, List.length_append]
        exact Nat.lt_succ_of_le (length_upTo_le u log)
      | _ => cases hv

theorem after (h : r.AsTold host log) (moves : List RoomMove) :
    (r.after moves).AsTold host (log ++ chronicle RoomMove.run r moves) := by
  induction moves generalizing r log with
  | nil =>
    rw [chronicle, List.append_nil]
    exact h
  | cons x moves ih =>
    rw [Room.after_cons, chronicle]
    split
    · rename_i hx
      have htold := ih (h.run hx)
      rwa [List.append_assoc] at htold
    · rename_i hx
      rw [run_refused (Bool.eq_false_iff.mpr hx)]
      exact ih h

end Room.AsTold

/-- the rolls have the same chronicle as the room with one list -/
theorem Rolls.InStep.chronicle_act {s : Rolls} (h : s.InStep) (id : Int32)
    (moves : List RoomMove) :
    chronicle Rolls.act s moves = chronicle RoomMove.run (s.room id) moves := by
  induction moves generalizing s with
  | nil => rfl
  | cons x moves ih =>
    obtain ⟨hrun, hstep⟩ := h.run_room id x
    rw [chronicle, chronicle, hrun, ih hstep]

/-- Whatever moves are made in a room, accepted or refused: every member is what the chronicle of
the room says, and nobody else could be; the members are listed in the order of their last joins,
and they are shown so to the members and, as long as the room is open, by the records of the room.
Kept in four collections, the room has the same chronicle, the same order and the same records. -/
theorem members_are_as_told (id : Int32) (settings : RoomSettings) (password : Option String)
    (host : PlayerProfile) (moves : List RoomMove) :
    let r := (Room.create id settings password host).after moves
    let s := (Rolls.create settings password host).after moves
    let log := chronicle RoomMove.run (Room.create id settings password host) moves
    (∀ m ∈ r.members, m.AsTold host log ∧
      ∀ m' : Member, m'.id = m.id → m'.AsTold host log → m' = m) ∧
    (r.ids.Pairwise fun u v => (upTo u log).length < (upTo v log).length) ∧
    r.snapshot.players = (r.members.map fun m =>
      ⟨m.id, m.profile.username, m.ready, m.hasMap, m.modifiers, m.wins⟩) ∧
    (r.closed = false → ∀ m ∈ r.members,
      r.liveRecord m.id = some ⟨m.profile, m.wins, m.modifiers, m.ready, m.hasMap⟩) ∧
    chronicle Rolls.act (Rolls.create settings password host) moves = log ∧
      s.order = r.ids ∧ ∀ user, s.record user = r.record user := by
  intro r s log
  have htold : r.AsTold host log := (Room.AsTold.made id settings password host).after moves
  have hnodup : r.ids.Nodup := htold.order.imp fun hlt heq => by
    rw [heq] at hlt
    exact Nat.lt_irrefl _ hlt
  have hrolls := Rolls.inStep_create settings password host
  have hafter := hrolls.after id moves
  rw [Rolls.room_create] at hafter
  have hroom : s.room id = r := hafter.1
  have hstep : s.InStep := hafter.2
  refine ⟨fun m hm => ⟨htold.members m hm, fun m' hid hm' => (htold.members m hm).unique hm' hid⟩,
    htold.order, rfl, fun hopen m hm => ?_, ?_, ?_, fun user => ?_⟩
  · rw [Room.liveRecord_of_open hopen, Room.record_of_mem hnodup hm]
    rfl
  · rw [hrolls.chronicle_act id, Rolls.room_create]
  · rw [← hroom, hstep.ids_room]
  · rw [← hroom, hstep.record_room]

namespace RoomMove

/-- User 8 plays a match, leaves and comes back, user 9 joins without the map, and user 10 is not
there. -/
def season : List RoomMove :=
  [.join ⟨8, "bea", "", "", ""⟩ none, .setModifiers 8 64, .setReady 8 true, .start 7, .finish 7,
    .addWin 8, .join ⟨9, "cyd", "", "", ""⟩ none, .setHasMap 9 false, .leave 8, .setReady 10 true,
    .changeMap 7 ⟨2, 2, "", "", .keys4, .zero⟩, .join ⟨8, "bea", "", "", ""⟩ none, .setReady 9 true,
    .setHasMap 9 false, .setModifiers 9 8]

end RoomMove

open RoomMove in
theorem members_are_as_told_season :
    let r := (Room.create 1 den none ⟨7, "ada", "", "", ""⟩).after season
    let log := chronicle RoomMove.run (Room.create 1 den none ⟨7, "ada", "", "", ""⟩) season
    (∃ m ∈ r.members, m.id = 9 ∧ m.ready = true ∧ m.hasMap = false ∧ m.modifiers = 8 ∧
      m.AsTold ⟨7, "ada", "", "", ""⟩ log) ∧
    r.liveRecord 8 = some ⟨⟨8, "bea", "", "", ""⟩, 0, 0, false, true⟩ ∧ r.ids = [7, 9, 8] := by
  intro r log
  have hids : r.ids = [7, 9, 8] := by decide +kernel
  have hopen : r.closed = false := by decide +kernel
  obtain ⟨htold, -, -, hrecords, -⟩ :=
    members_are_as_told 1 den none ⟨7, "ada", "", "", ""⟩ season
  have hcyd : (⟨⟨9, "cyd", "", "", ""⟩, 8, 0, true, false⟩ : Member) ∈ r.members := by
    decide +kernel
  have hbea : Member.newcomer ⟨8, "bea", "", "", ""⟩ ∈ r.members := by decide +kernel
  exact ⟨⟨_, hcyd, rfl, rfl, rfl, rfl, (htold _ hcyd).1⟩, hrecords hopen _ hbea, hids⟩

end RhythmLobby
