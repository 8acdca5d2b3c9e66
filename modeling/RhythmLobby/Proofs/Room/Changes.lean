import RhythmLobby.Room.State

/-!
# What an operation on a room changes

Every operation that a room accepts is a change of one of a few kinds, as far as the records of
the room are concerned.

* `Room.PlayerChange`    one member comes or changes: `join`, `setReady` to `addWin`;
* `Room.ListingChange`   the members stay as they are: `updateSettings`, `start`, `transferHost`;
* `Room.Reset`           the same users stay members: `changeMap`, `finish`;
* `Room.leave_cases`     the ways in which a member leaves;
* `Room.close_ok`        what closing leaves;
* `Room.Answered`        what holds after an operation that may be refused.
-/

namespace RhythmLobby.Room

/-- one thing if an operation is refused, another if it gives an answer -/
def Answered {α : Type} (refused : Prop) (given : α → Prop) : Except RoomError α → Prop
  | .error _ => refused
  | .ok a => given a

/-! ## Members found by id -/

theorem member?_id {r : Room} {user : Int32} {m : Member} (h : r.member? user = some m) :
    m.id = user := by
  simpa using List.find?_some h

theorem member?_eq_none_iff {r : Room} {user : Int32} : r.member? user = none ↔ user ∉ r.ids := by
  simp only [member?, ids, List.find?_eq_none, decide_eq_true_eq, List.mem_map, not_exists, not_and]

theorem hasMember_iff {r : Room} {user : Int32} : r.hasMember user = true ↔ user ∈ r.ids := by
  rw [hasMember, Option.isSome_iff_ne_none, Ne, member?_eq_none_iff, Classical.not_not]

theorem record_eq_none_iff {r : Room} {user : Int32} : r.record user = none ↔ user ∉ r.ids := by
  rw [record, Option.map_eq_none_iff, member?_eq_none_iff]

theorem record_owner {r : Room} {user : Int32} {record : PlayerRecord}
    (h : r.record user = some record) : record.profile.userId = user := by
  obtain ⟨m, hm, rfl⟩ := Option.map_eq_some_iff.mp h
  exact member?_id hm

theorem record_of_mem {r : Room} (hn : r.ids.Nodup) {m : Member} (hm : m ∈ r.members) :
    r.record m.id = some m.record := by
  unfold record member?
  unfold ids at hn
  generalize r.members = members at hn hm ⊢
  induction members with
  | nil => cases hm
  | cons m' rest ih =>
    rw [List.map_cons, List.nodup_cons] at hn
    rcases List.mem_cons.mp hm with rfl | hm
    · rw [List.find?_cons_of_pos (by simp)]
      rfl
    · have hne : m'.id ≠ m.id := fun h => hn.1 (h ▸ List.mem_map.mpr ⟨m, hm, rfl⟩)
      rw [List.find?_cons_of_neg (by simpa using hne)]
      exact ih hn.2 hm

theorem find?_map_id {f : Member → Member} (hf : ∀ m, (f m).id = m.id) (members : List Member)
    (user : Int32) : (members.map f).find? (·.id = user) =
      (members.find? (·.id = user)).map f := by
  rw [List.find?_map]
  simp only [Function.comp_def, hf]

theorem ids_map {f : Member → Member} (hf : ∀ m, (f m).id = m.id) (members : List Member) :
    (members.map f).map Member.id = members.map Member.id := by
  rw [List.map_map]
  exact List.map_congr_left fun m _ => hf m

theorem liveRecord_of_open {r : Room} (h : r.closed = false) (user : Int32) :
    r.liveRecord user = r.record user := by
  rw [liveRecord, h]
  rfl

theorem liveListing_of_open {r : Room} (h : r.closed = false) :
    r.liveListing = some r.listing := by
  rw [liveListing, h]
  rfl

theorem liveRecord_of_closed {r : Room} (h : r.closed = true) (user : Int32) :
    r.liveRecord user = none := by
  rw [liveRecord, h]
  rfl

theorem liveListing_of_closed {r : Room} (h : r.closed = true) : r.liveListing = none := by
  rw [liveListing, h]
  rfl

theorem liveRecord_owner {r : Room} {user : Int32} {record : PlayerRecord}
    (h : r.liveRecord user = some record) : record.profile.userId = user := by
  by_cases hc : r.closed = true
  · rw [liveRecord_of_closed hc] at h
    cases h
  · rw [liveRecord_of_open (Bool.eq_false_iff.mpr hc)] at h
    exact record_owner h

theorem liveRecord_of_notMem {r : Room} {user : Int32} (h : user ∉ r.ids) :
    r.liveRecord user = none := by
  rw [liveRecord, record_eq_none_iff.mpr h, ite_self]

/-! ## Kinds of changes -/

/-- one member has come or has changed, and has this record now -/
structure PlayerChange (r : Room) (user : Int32) (record : PlayerRecord) (r' : Room) : Prop where
  wasOpen : r.closed = false
  isOpen : r'.closed = false
  listing : r'.listing = r.listing
  record : r'.record user = some record
  others : ∀ v, v ≠ user → r'.record v = r.record v
  nodup : r.ids.Nodup → r'.ids.Nodup

/-- the members and the map stay as they are -/
structure ListingChange (r r' : Room) : Prop where
  wasOpen : r.closed = false
  isOpen : r'.closed = false
  members : r'.members = r.members
  map : r'.settings.map = r.settings.map

/-- the same users stay members -/
structure Reset (r r' : Room) : Prop where
  wasOpen : r.closed = false
  isOpen : r'.closed = false
  ids : r'.ids = r.ids

theorem PlayerChange.liveListing {r r' : Room} {user : Int32} {record : PlayerRecord}
    (h : r.PlayerChange user record r') : r'.liveListing = r.liveListing := by
  rw [liveListing_of_open h.isOpen, liveListing_of_open h.wasOpen, h.listing]

theorem PlayerChange.liveRecord_of_ne {r r' : Room} {user v : Int32} {record : PlayerRecord}
    (h : r.PlayerChange user record r') (hv : v ≠ user) : r'.liveRecord v = r.liveRecord v := by
  rw [liveRecord_of_open h.isOpen, liveRecord_of_open h.wasOpen, h.others v hv]

theorem PlayerChange.owner {r r' : Room} {user : Int32} {record : PlayerRecord}
    (h : r.PlayerChange user record r') : record.profile.userId = user :=
  record_owner h.record

theorem ListingChange.liveRecord {r r' : Room} (h : r.ListingChange r') (user : Int32) :
    r'.liveRecord user = r.liveRecord user := by
  rw [liveRecord_of_open h.isOpen, liveRecord_of_open h.wasOpen, record, member?, h.members]
  rfl

theorem Reset.liveRecord_eq_none {r r' : Room} (h : r.Reset r') {user : Int32}
    (hn : r'.liveRecord user = none) : r.liveRecord user = none := by
  rw [liveRecord_of_open h.isOpen, record_eq_none_iff, h.ids] at hn
  exact liveRecord_of_notMem hn

/-! ## Permissions -/

theorem checkOpen_ok {r : Room} (h : r.checkOpen = .ok ()) : r.closed = false := by
  unfold checkOpen at h
  split at h
  · cases h
  · rename_i hc
    exact Bool.eq_false_iff.mpr hc

theorem checkMember_ok {r : Room} {user : Int32} (h : r.checkMember user = .ok ()) :
    r.closed = false ∧ user ∈ r.ids := by
  unfold checkMember at h
  cases ho : r.checkOpen with
  | error e => rw [ho] at h; cases h
  | ok _ =>
    rw [ho] at h
    by_cases hm : r.hasMember user = true
    · exact ⟨checkOpen_ok ho, hasMember_iff.mp hm⟩
    · simp only [hm] at h
      cases h

theorem checkHost_ok {r : Room} {user : Int32} (h : r.checkHost user = .ok ()) :
    r.closed = false ∧ r.settings.hostId = user := by
  unfold checkHost at h
  cases ho : r.checkOpen with
  | error e => rw [ho] at h; cases h
  | ok _ =>
    rw [ho] at h
    by_cases hm : r.settings.hostId = user
    · exact ⟨checkOpen_ok ho, hm⟩
    · simp only [hm] at h
      cases h

/-- what comes first in a chain of checks has succeeded if the chain has -/
theorem bind_ok {ε α β : Type} {x : Except ε α} {f : α → Except ε β} {b : β}
    (h : (x >>= f) = .ok b) : ∃ a, x = .ok a ∧ f a = .ok b := by
  cases x with
  | error e => cases h
  | ok a => exact ⟨a, rfl, h⟩

theorem map_ok {ε α β : Type} {x : Except ε α} {f : α → β} {b : β} (h : x.map f = .ok b) :
    ∃ a, x = .ok a ∧ f a = b := by
  cases x with
  | error e => cases h
  | ok a =>
    cases h
    exact ⟨a, rfl, rfl⟩

/-! ## One member -/

theorem join_ok {r r' : Room} {profile : PlayerProfile} {guess : Option String}
    {record : PlayerRecord} (h : r.join profile guess = .ok (record, r')) :
    r.PlayerChange profile.userId record r' := by
  unfold join at h
  obtain ⟨_, ho, h⟩ := bind_ok h
  have hopen := checkOpen_ok ho
  by_cases hm : r.hasMember profile.userId = true
  · simp only [hm] at h
    cases h
  simp only [hm] at h
  by_cases hp : (!r.admits guess) = true
  · simp only [hp] at h
    cases h
  simp only [hp] at h
  by_cases hf : r.settings.maxPlayers.toNat ≤ r.members.length
  · simp only [hf] at h
    cases h
  simp only [hf] at h
  cases h
  have hnew : profile.userId ∉ r.ids := fun hi => hm (hasMember_iff.mpr hi)
  refine ⟨hopen, hopen, rfl, ?_, ?_, ?_⟩
  · have hnone := member?_eq_none_iff.mpr hnew
    rw [member?] at hnone
    show ((r.members ++ [Member.newcomer profile]).find? (·.id = profile.userId)).map _ = _
    rw [List.find?_append, hnone]
    simp [Member.newcomer, Member.id]
  · intro v hv
    simp [Room.record, member?, List.find?_append, Member.newcomer, Member.id, Ne.symm hv]
  · intro hn
    have hids : ({ r with members := r.members ++ [Member.newcomer profile] } : Room).ids =
        r.ids ++ [profile.userId] := by
      simp [ids, Member.newcomer, Member.id]
    rw [hids, List.nodup_append]
    refine ⟨hn, by simp, ?_⟩
    intro a ha b hb
    rw [List.mem_singleton] at hb
    rw [hb]
    exact fun hab => hnew (hab ▸ ha)

theorem modifyMember_ok {r r' : Room} {user : Int32} {f : Member → Member}
    (hf : ∀ m, (f m).id = m.id) {record : PlayerRecord}
    (h : r.modifyMember user f = .ok (record, r')) : r.PlayerChange user record r' := by
  unfold modifyMember at h
  obtain ⟨_, ho, h⟩ := bind_ok h
  have hopen := (checkMember_ok ho).1
  have hg : ∀ m : Member, (if m.id = user then f m else m).id = m.id := by
    intro m
    split
    · exact hf m
    · rfl
  dsimp only at h
  split at h
  · rename_i record' hr
    cases h
    refine ⟨hopen, hopen, rfl, hr, ?_, ?_⟩
    · intro v hv
      unfold Room.record member? modify
      rw [find?_map_id hg]
      cases hm : r.members.find? (·.id = v) with
      | none => rfl
      | some m =>
        have hid : m.id = v := by simpa using List.find?_some hm
        simp [hid, hv]
    · intro hn
      unfold ids modify
      rw [ids_map hg]
      exact hn
  · cases h

theorem setReady_ok {r r' : Room} {user : Int32} {ready : Bool} {record : PlayerRecord}
    (h : r.setReady user ready = .ok (record, r')) : r.PlayerChange user record r' :=
  modifyMember_ok (f := fun m => { m with ready := ready }) (fun _ => rfl) h

theorem setHasMap_ok {r r' : Room} {user : Int32} {hasMap : Bool} {record : PlayerRecord}
    (h : r.setHasMap user hasMap = .ok (record, r')) : r.PlayerChange user record r' :=
  modifyMember_ok (f := fun m => { m with hasMap := hasMap }) (fun _ => rfl) h

theorem setModifiers_ok {r r' : Room} {user : Int32} {modifiers : Int64} {record : PlayerRecord}
    (h : r.setModifiers user modifiers = .ok (record, r')) : r.PlayerChange user record r' :=
  modifyMember_ok (f := fun m => { m with modifiers := modifiers }) (fun _ => rfl) h

theorem addWin_ok {r r' : Room} {user : Int32} {record : PlayerRecord}
    (h : r.addWin user = .ok (record, r')) : r.PlayerChange user record r' :=
  modifyMember_ok (f := Member.win) (fun _ => rfl) h

/-! ## Settings -/

theorem updateSettings_ok {r r' : Room} {caller : Int32} {p : SettingsPatch}
    (h : r.updateSettings caller p = .ok r') : r.ListingChange r' := by
  unfold updateSettings at h
  obtain ⟨_, ho, h⟩ := bind_ok h
  obtain ⟨_, _, h⟩ := bind_ok h
  obtain ⟨_, _, h⟩ := bind_ok h
  cases h
  exact ⟨(checkHost_ok ho).1, (checkHost_ok ho).1, rfl, rfl⟩

theorem start_ok {r r' : Room} {caller : Int32} (h : r.start caller = .ok r') :
    r.ListingChange r' := by
  unfold start at h
  obtain ⟨_, ho, h⟩ := bind_ok h
  obtain ⟨_, _, h⟩ := bind_ok h
  cases h
  exact ⟨(checkHost_ok ho).1, (checkHost_ok ho).1, rfl, rfl⟩

theorem transferHost_ok {r r' : Room} {caller heir : Int32}
    (h : r.transferHost caller heir = .ok r') : r.ListingChange r' := by
  unfold transferHost at h
  obtain ⟨_, ho, h⟩ := bind_ok h
  obtain ⟨_, _, h⟩ := bind_ok h
  cases h
  exact ⟨(checkHost_ok ho).1, (checkHost_ok ho).1, rfl, rfl⟩

theorem changeMap_ok {r r' : Room} {caller : Int32} {map : MapInfo}
    (h : r.changeMap caller map = .ok r') : r.Reset r' := by
  unfold changeMap at h
  obtain ⟨_, ho, h⟩ := bind_ok h
  obtain ⟨_, _, h⟩ := bind_ok h
  cases h
  exact ⟨(checkHost_ok ho).1, (checkHost_ok ho).1,
    ids_map (f := fun m => { m with ready := false, hasMap := true }) (fun _ => rfl) r.members⟩

theorem finish_ok {r r' : Room} {caller : Int32} (h : r.finish caller = .ok r') :
    r.Reset r' := by
  unfold finish at h
  obtain ⟨_, ho, h⟩ := bind_ok h
  by_cases hp : (!r.settings.inProgress) = true
  · simp only [hp] at h
    cases h
  simp only [hp] at h
  cases h
  exact ⟨(checkHost_ok ho).1, (checkHost_ok ho).1,
    ids_map (f := fun m => { m with ready := false }) (fun _ => rfl) r.members⟩

/-! ## Members who go -/

theorem record_without (r : Room) (user v : Int32) :
    (r.without user).record v = if v = user then none else r.record v := by
  unfold record member? without
  rw [List.find?_filter]
  by_cases hv : v = user
  · rw [if_pos hv, Option.map_eq_none_iff, List.find?_eq_none]
    intro m _
    simp only [decide_eq_true_eq, not_and]
    intro hm heq
    subst heq
    simp [hv] at hm
  · rw [if_neg hv]
    congr 2
    funext m
    by_cases hm : m.id = v <;> simp [hm, hv]

theorem nodup_without {r : Room} (h : r.ids.Nodup) (user : Int32) : (r.without user).ids.Nodup :=
  (List.filter_sublist.map _).nodup h

theorem leave_of_notMem {r : Room} {user : Int32} (h : r.closed = true ∨ user ∉ r.ids) :
    r.leave user = (.notMember, r) := by
  apply if_pos
  rw [Bool.or_eq_true, Bool.not_eq_true', ← Bool.not_eq_true, hasMember_iff]
  exact h

theorem leave_of_mem {r : Room} {user : Int32} (hopen : r.closed = false) (hmem : user ∈ r.ids) :
    ((r.without user).ids = [] ∧
        r.leave user = (.emptied, { r.without user with closed := true })) ∨
      ((r.without user).ids ≠ [] ∧
        (r.leave user = (.left, r.without user) ∨
          ∃ host, r.leave user = (.hostPassed host, (r.without user).hostedBy host))) := by
  have hc : ¬ (r.closed || !r.hasMember user) = true := by
    rw [hopen, hasMember_iff.mpr hmem]
    exact Bool.false_ne_true
  unfold leave
  rw [if_neg hc]
  dsimp only
  cases hids : (r.without user).ids with
  | nil => exact .inl ⟨rfl, rfl⟩
  | cons first rest =>
    refine .inr ⟨List.cons_ne_nil _ _, ?_⟩
    by_cases hh : r.settings.hostId = user
    · exact .inr ⟨_, if_pos hh⟩
    · exact .inl (if_neg hh)

theorem leave_cases (r : Room) (user : Int32) :
    r.leave user = (.notMember, r) ∨
    (r.closed = false ∧ user ∈ r.ids ∧
      (((r.without user).ids = [] ∧
          r.leave user = (.emptied, { r.without user with closed := true })) ∨
        ((r.without user).ids ≠ [] ∧
          (r.leave user = (.left, r.without user) ∨
            ∃ host, r.leave user = (.hostPassed host, (r.without user).hostedBy host))))) := by
  by_cases h : r.closed = true ∨ user ∉ r.ids
  · exact .inl (leave_of_notMem h)
  · rw [not_or, Classical.not_not] at h
    have hopen := Bool.eq_false_iff.mpr h.1
    exact .inr ⟨hopen, h.2, leave_of_mem hopen h.2⟩

theorem closed_leave {r : Room} (h : r.closed = true) (user : Int32) :
    (r.leave user).2.closed = true := by
  rcases leave_cases r user with hl | ⟨hopen, -⟩
  · rw [hl]
    exact h
  · rw [h] at hopen
    cases hopen

theorem closed_of_emptied {r r' : Room} {user : Int32} (h : r.leave user = (.emptied, r')) :
    r'.closed = true := by
  rcases leave_cases r user with hl | ⟨-, -, ⟨-, hl⟩ | ⟨-, hl | ⟨host, hl⟩⟩⟩
  all_goals
    rw [hl] at h
    cases h
  rfl

theorem eq_of_notMember {r r' : Room} {user : Int32} (h : r.leave user = (.notMember, r')) :
    r' = r := by
  rcases leave_cases r user with hl | ⟨-, -, ⟨-, hl⟩ | ⟨-, hl | ⟨host, hl⟩⟩⟩
  all_goals
    rw [hl] at h
    cases h
  rfl

theorem liveRecord_leave (r : Room) {user v : Int32} (hv : v ≠ user) :
    (r.leave user).2.liveRecord v = r.liveRecord v := by
  have hstays : (r.without user).record v = r.record v := by rw [record_without, if_neg hv]
  rcases leave_cases r user with hl | ⟨hopen, -, ⟨hids, hl⟩ | ⟨-, hl | ⟨host, hl⟩⟩⟩
  · rw [hl]
  · have hnone : (r.without user).record v = none := by
      rw [record_eq_none_iff, hids]
      exact List.not_mem_nil
    rw [hl, liveRecord_of_closed rfl, liveRecord_of_open hopen, ← hstays, hnone]
  · have hopen' : (r.without user).closed = false := hopen
    rw [hl, liveRecord_of_open hopen, ← hstays]
    exact liveRecord_of_open hopen' v
  · have hopen' : ((r.without user).hostedBy host).closed = false := hopen
    rw [hl, liveRecord_of_open hopen, ← hstays]
    exact liveRecord_of_open hopen' v

theorem close_ok {r r' : Room} {caller : Option Int32} {members : List Int32}
    (h : r.close caller = .ok (members, r')) :
    r.closed = false ∧ members = r.ids ∧ r' = { r with members := [], closed := true } := by
  unfold close at h
  cases caller with
  | some user =>
    obtain ⟨_, ho, h⟩ := bind_ok h
    cases h
    exact ⟨(checkHost_ok ho).1, rfl, rfl⟩
  | none =>
    obtain ⟨_, ho, h⟩ := bind_ok h
    cases h
    exact ⟨checkOpen_ok ho, rfl, rfl⟩

end RhythmLobby.Room
