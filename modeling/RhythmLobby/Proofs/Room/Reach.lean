import RhythmLobby.Proofs.Room.Deeds

/-!
# How far a packet reaches in a room

A guest changes its own record and leaves everything else alone.  A host may change the room, but of
the records of others only a little.

* `Room.OutOfReach`    what is the same for all but one user;
* `Member.Bears`       what a host makes of another member's record;
* `Room.Grants`        what a packet of a user may make of a room;
* `ChangedBy.grants`, `Room.grants_leave`, `Room.grants_close`   what is made of rooms is granted.
-/

namespace RhythmLobby

/-! ## What stays as it is -/

/-- Of another member's record, a host changes only whether the member has the map, by choosing a
map, whether it is ready, by choosing a map or by ending a match, and how often it has won, by
naming it as the winner of a match. -/
structure Member.Bears (p : ClientPacket) (x : Except Refusal Unit) (m m' : Member) : Prop where
  profile : m'.profile = m.profile
  modifiers : m'.modifiers = m.modifiers
  hasMap : m'.hasMap = m.hasMap ∨ ∃ map, p = .roomMap map
  ready : m'.ready = m.ready ∨ (∃ map, p = .roomMap map) ∨ ∃ winner, p = .roomFinish winner
  wins : m'.wins = m.wins ∨ (p = .roomFinish (some m.id) ∧ x = .ok () ∧
    m'.wins.toNat = min (m.wins.toNat + 1) (UInt32.size - 1))

theorem Member.bears_refl (p : ClientPacket) (x : Except Refusal Unit) (m : Member) :
    m.Bears p x m := ⟨rfl, rfl, .inl rfl, .inl rfl, .inl rfl⟩

theorem Member.wins_win (m : Member) :
    m.win.wins.toNat = min (m.wins.toNat + 1) (UInt32.size - 1) := by
  have hsmall : min (m.wins.toNat + 1) (UInt32.size - 1) < UInt32.size :=
    Nat.lt_of_le_of_lt (Nat.min_le_right _ _) (by decide)
  exact UInt32.toNat_ofNat_of_lt hsmall

namespace Room

/-- The settings with the map and the host, the password and all records but that of the user are
as they were, and the room is as open as it was. -/
structure OutOfReach (user : Int32) (r r' : Room) : Prop where
  settings : r'.settings = r.settings
  password : r'.password = r.password
  closed : r'.closed = r.closed
  others : r'.members.filter (·.id ≠ user) = r.members.filter (·.id ≠ user)

/-- What a packet of a user, to which `x` is the answer, may make of a room: nothing if the user is
not in the room before or after, nothing out of reach if it is in the room as a guest, and no more
of others than they bear if it is the host.  Nobody else comes or goes, unless the host closes the
room. -/
structure Grants (user : Int32) (p : ClientPacket) (x : Except Refusal Unit) (r r' : Room) :
    Prop where
  elsewhere : user ∉ r.ids → user ∉ r'.ids → r' = r
  guest : user ∈ r.ids → r.settings.hostId ≠ user → r.OutOfReach user r'
  host : user ∈ r.ids → r.settings.hostId = user → ∀ v m, v ≠ user → r.member? v = some m →
    (∃ m', r'.member? v = some m' ∧ m.Bears p x m') ∨ (p = .roomClose ∧ x = .ok ())
  seats : r'.ids.filter (· ≠ user) = r.ids.filter (· ≠ user) ∨
    (p = .roomClose ∧ x = .ok () ∧ r.settings.hostId = user)

variable {user v : Int32} {p : ClientPacket} {x : Except Refusal Unit} {r r' : Room} {m : Member}

theorem grants_refl (user : Int32) (p : ClientPacket) (x : Except Refusal Unit) (r : Room) :
    r.Grants user p x r where
  elsewhere _ _ := rfl
  guest _ _ := ⟨rfl, rfl, rfl, rfl⟩
  host _ _ _ m _ hm := .inl ⟨m, hm, m.bears_refl p x⟩
  seats := .inl rfl

theorem ids_of_others
    (h : r'.members.filter (·.id ≠ user) = r.members.filter (·.id ≠ user)) :
    r'.ids.filter (· ≠ user) = r.ids.filter (· ≠ user) := by
  have hids : ∀ members : List Member,
      (members.map Member.id).filter (· ≠ user) =
        (members.filter (·.id ≠ user)).map Member.id := fun members => List.filter_map
  rw [ids, hids, h, ← hids, ← ids]

/-- whoever comes was not there before, and brings nobody along -/
theorem grants_of_comes (hout : user ∉ r.ids) (hin : user ∈ r'.ids)
    (hothers : r'.ids.filter (· ≠ user) = r.ids.filter (· ≠ user)) : r.Grants user p x r' where
  elsewhere _ hout' := absurd hin hout'
  guest hin' := absurd hin' hout
  host hin' := absurd hin' hout
  seats := .inl hothers

/-! ## Records of others -/

theorem member?_of_others
    (h : r'.members.filter (·.id ≠ user) = r.members.filter (·.id ≠ user)) (hv : v ≠ user) :
    r'.member? v = r.member? v := by
  have hfind : ∀ members : List Member,
      members.find? (·.id = v) = (members.filter (·.id ≠ user)).find? (·.id = v) := by
    intro members
    rw [List.find?_filter]
    congr 1
    funext m
    by_cases hm : m.id = v
    · simp [hm, hv]
    · simp [hm]
  rw [member?, member?, hfind, h, ← hfind]

theorem member?_modify {f : Member → Member} (hf : ∀ m, (f m).id = m.id) (r : Room)
    (user v : Int32) :
    (r.modify user f).member? v = if v = user then (r.member? v).map f else r.member? v := by
  have hkeeps : ∀ m : Member, (if m.id = user then f m else m).id = m.id := by
    intro m
    split
    · exact hf m
    · rfl
  rw [member?, modify, find?_map_id hkeeps, ← member?]
  cases hm : r.member? v with
  | none => simp
  | some m =>
    rw [Option.map_some, member?_id hm]
    split
    · rfl
    · rfl

theorem member?_all {f : Member → Member} (hf : ∀ m, (f m).id = m.id)
    (hmembers : r'.members = r.members.map f) (hm : r.member? v = some m) :
    r'.member? v = some (f m) := by
  rw [member?, hmembers, find?_map_id hf, ← member?, hm]
  rfl

theorem member?_finish {caller : Int32} (h : r.finish caller = .ok r')
    (hm : r.member? v = some m) : r'.member? v = some { m with ready := false } := by
  obtain ⟨-, -, -, rfl⟩ := finish_inv h
  exact member?_all (f := fun m => { m with ready := false }) (fun _ => rfl) rfl hm

theorem others_modify {f : Member → Member} (hf : ∀ m, (f m).id = m.id) (r : Room)
    (user : Int32) :
    (r.modify user f).members.filter (·.id ≠ user) = r.members.filter (·.id ≠ user) := by
  unfold modify
  induction r.members with
  | nil => rfl
  | cons m rest ih =>
    by_cases hm : m.id = user
    · simpa [hm, hf] using ih
    · simpa [hm] using ih

theorem others_without (r : Room) (user : Int32) :
    (r.without user).members.filter (·.id ≠ user) = r.members.filter (·.id ≠ user) := by
  rw [without, List.filter_filter]
  simp

/-! ## Changes -/

theorem ChangedBy.outOfReach (h : r.ChangedBy user p r') (hguest : r.settings.hostId ≠ user) :
    r.OutOfReach user r' := by
  rcases h.kinds with ⟨f, record, hf, h⟩ | ⟨-, hhost, -, -⟩
  · obtain ⟨-, -, -, rfl⟩ := modifyMember_inv h
    exact ⟨rfl, rfl, rfl, others_modify hf r user⟩
  · exact absurd hhost hguest

/-- of the others, nobody comes to bear more than the host may impose -/
theorem ChangedBy.bears (h : r.ChangedBy user p r') (hv : v ≠ user) (hm : r.member? v = some m) :
    ∃ m', r'.member? v = some m' ∧ m.Bears p (.ok ()) m' := by
  have hown : ∀ {f : Member → Member} {record}, (∀ m, (f m).id = m.id) →
      r.modifyMember user f = .ok (record, r') →
      ∃ m', r'.member? v = some m' ∧ m.Bears p (.ok ()) m' := by
    intro f record hf h
    obtain ⟨-, -, -, rfl⟩ := modifyMember_inv h
    exact ⟨m, (member?_of_others (others_modify hf r user) hv).trans hm, m.bears_refl _ _⟩
  have hlisting : r.ListingChange r' → ∃ m', r'.member? v = some m' ∧ m.Bears p (.ok ()) m' := by
    intro h
    exact ⟨m, by rw [member?, h.members, ← member?, hm], m.bears_refl _ _⟩
  cases p with
  | roomReady ready =>
    obtain ⟨record, h⟩ := h
    exact hown (f := fun m => { m with ready := ready }) (fun _ => rfl) h
  | roomHasMap hasMap =>
    obtain ⟨record, h⟩ := h
    exact hown (f := fun m => { m with hasMap := hasMap }) (fun _ => rfl) h
  | roomMods modifiers =>
    obtain ⟨record, h⟩ := h
    exact hown (f := fun m => { m with modifiers := modifiers }) (fun _ => rfl) h
  | roomSettings patch => exact hlisting (updateSettings_ok h)
  | roomStart => exact hlisting (start_ok h)
  | roomHost heir => exact hlisting (transferHost_ok h)
  | roomMap map =>
    obtain ⟨-, -, -, rfl⟩ := changeMap_inv h
    exact ⟨_, member?_all (f := fun m => { m with ready := false, hasMap := true })
      (fun _ => rfl) rfl hm, rfl, rfl, .inr ⟨map, rfl⟩, .inr (.inl ⟨map, rfl⟩), .inl rfl⟩
  | roomFinish winner =>
    cases winner with
    | none =>
      exact ⟨_, member?_finish h hm, rfl, rfl, .inl rfl, .inr (.inr ⟨none, rfl⟩), .inl rfl⟩
    | some winner =>
      obtain ⟨-, r₁, record, hfinish, hwin⟩ := h
      obtain ⟨-, -, -, rfl⟩ := modifyMember_inv hwin
      have hwon := member?_modify (f := Member.win) (fun _ => rfl) r₁ winner v
      rw [member?_finish hfinish hm] at hwon
      by_cases hw : v = winner
      · rw [if_pos hw] at hwon
        refine ⟨_, hwon, rfl, rfl, .inl rfl, .inr (.inr ⟨_, rfl⟩), .inr ⟨?_, rfl, ?_⟩⟩
        · rw [member?_id hm, hw]
        · exact Member.wins_win _
      · rw [if_neg hw] at hwon
        exact ⟨_, hwon, rfl, rfl, .inl rfl, .inr (.inr ⟨_, rfl⟩), .inl rfl⟩
  | _ => exact h.elim

theorem ChangedBy.grants (hr : r.Sound) (h : r.ChangedBy user p r') :
    r.Grants user p (.ok ()) r' where
  elsewhere hout := absurd (h.member hr) hout
  guest _ hguest := h.outOfReach hguest
  host _ _ _ _ hv hm := .inl (h.bears hv hm)
  seats := .inl (by rw [h.ids])

/-- whoever wins has one more win, up to the largest number there is -/
theorem ChangedBy.wins (h : r.ChangedBy user (.roomFinish (some v)) r') :
    r.settings.hostId = user ∧ ∃ m m', r.member? v = some m ∧ r'.member? v = some m' ∧
      m'.wins.toNat = min (m.wins.toNat + 1) (UInt32.size - 1) := by
  obtain ⟨hmem, r₁, record, hfinish, hwin⟩ := h
  obtain ⟨-, hhost, -⟩ := finish_inv hfinish
  obtain ⟨-, -, -, rfl⟩ := modifyMember_inv hwin
  obtain ⟨m, hm⟩ : ∃ m, r.member? v = some m :=
    Option.ne_none_iff_exists'.mp fun hnone => member?_eq_none_iff.mp hnone hmem
  have hwon := member?_modify (f := Member.win) (fun _ => rfl) r₁ v v
  rw [member?_finish hfinish hm, if_pos rfl] at hwon
  exact ⟨hhost, m, _, hm, hwon, Member.wins_win _⟩

/-! ## Members who come and go -/

theorem grants_join {profile : PlayerProfile} {guess : Option String} {record : PlayerRecord}
    (h : r.join profile guess = .ok (record, r')) : r.Grants profile.userId p x r' := by
  obtain ⟨-, hout, -, -, -, rfl⟩ := join_inv h
  have hids : ({ r with members := r.members ++ [Member.newcomer profile] } : Room).ids =
      r.ids ++ [profile.userId] := List.map_append
  refine grants_of_comes hout ?_ ?_
  · rw [hids]
    exact List.mem_append_right _ (List.mem_singleton_self _)
  · rw [hids, List.filter_append, List.filter_cons_of_neg (by simp), List.filter_nil,
      List.append_nil]

theorem others_leave (r : Room) (user : Int32) :
    (r.leave user).2.members.filter (·.id ≠ user) = r.members.filter (·.id ≠ user) := by
  rcases leave_cases r user with hl | ⟨-, -, ⟨-, hl⟩ | ⟨-, hl | ⟨host, hl⟩⟩⟩
  all_goals rw [hl]
  all_goals exact others_without r user

theorem leave_of_guest (hguest : r.settings.hostId ≠ user) :
    r.leave user = (.notMember, r) ∨
      ((r.without user).ids = [] ∧
        r.leave user = (.emptied, { r.without user with closed := true })) ∨
      r.leave user = (.left, r.without user) := by
  by_cases hc : (r.closed || !r.hasMember user) = true
  · exact .inl (if_pos hc)
  unfold leave
  rw [if_neg hc]
  dsimp only
  cases hids : (r.without user).ids with
  | nil => exact .inr (.inl ⟨rfl, rfl⟩)
  | cons first rest => exact .inr (.inr (if_neg hguest))

theorem without_of_guest (hr : r.Sound) (hopen : r.closed = false)
    (hguest : r.settings.hostId ≠ user) : (r.without user).ids ≠ [] := by
  have hstays : r.settings.hostId ∈ (r.without user).ids := by
    rw [ids_without]
    exact List.mem_filter.mpr ⟨(hr.inhabited hopen).2.2, decide_eq_true hguest⟩
  exact List.ne_nil_of_mem hstays

theorem outOfReach_leave (hr : r.Sound) (hguest : r.settings.hostId ≠ user) :
    r.OutOfReach user (r.leave user).2 := by
  have hothers := others_leave r user
  cases hc : r.closed with
  | true =>
    rw [leave_of_notMem (.inl hc)]
    exact ⟨rfl, rfl, rfl, rfl⟩
  | false =>
    rcases leave_of_guest hguest with h | ⟨hids, -⟩ | h
    · rw [h]
      exact ⟨rfl, rfl, rfl, rfl⟩
    · exact absurd hids (without_of_guest hr hc hguest)
    · rw [h] at hothers ⊢
      exact ⟨rfl, rfl, rfl, hothers⟩

theorem grants_leave (hr : r.Sound) (user : Int32) (x : Except Refusal Unit) :
    r.Grants user .roomLeave x (r.leave user).2 where
  elsewhere hout _ := by rw [leave_of_notMem (.inr hout)]
  guest _ hguest := outOfReach_leave hr hguest
  host _ _ _ m hv hm :=
    .inl ⟨m, (member?_of_others (others_leave r user) hv).trans hm, m.bears_refl _ _⟩
  seats := .inl (ids_of_others (others_leave r user))

theorem close_host {members : List Int32} (h : r.close (some user) = .ok (members, r')) :
    r.closed = false ∧ r.settings.hostId = user := by
  obtain ⟨_, hcheck, -⟩ := bind_ok h
  exact checkHost_ok hcheck

theorem grants_close {members : List Int32} (hr : r.Sound)
    (h : r.close (some user) = .ok (members, r')) : r.Grants user .roomClose (.ok ()) r' where
  elsewhere hout := by
    obtain ⟨hopen, rfl⟩ := close_host h
    exact absurd (hr.inhabited hopen).2.2 hout
  guest _ hguest := absurd (close_host h).2 hguest
  host _ _ _ _ _ _ := .inr ⟨rfl, rfl⟩
  seats := .inr ⟨rfl, rfl, (close_host h).2⟩

end Room
end RhythmLobby
