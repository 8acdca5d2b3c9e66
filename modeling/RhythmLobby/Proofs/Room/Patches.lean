import RhythmLobby.Proofs.Room.Endings
import RhythmLobby.Proofs.Room.Halting
import RhythmLobby.Proofs.Room.Rolls

/-!
# Changes of settings, one after another

Two changes of its settings that a room accepts one after another are one change, in which the
second one has its way wherever it names something.

* `SettingsPatch.over`              both changes as one;
* `Room.patched_patched`, `Room.patchedPassword_patchedPassword`   what it makes of the settings;
* `Room.updateSettings_over`        it is accepted as they are, and comes to the same;
* `Room.Adopts`                     what an accepted change makes of a room;
* `Rolls.SameMembers`               the members with their flags are untouched;
* `RoomRef.changeListing_given`     an accepted change and its record;
* `settings_changes_compose`        all this, in any room at any time.
-/

namespace RhythmLobby
open Cache

/-! ## Two changes as one -/

/-- both changes as one, where `q` has its way over `p` in all that it names -/
def SettingsPatch.over (q p : SettingsPatch) : SettingsPatch where
  name := q.name.or p.name
  password := q.password.or p.password
  maxPlayers := q.maxPlayers.or p.maxPlayers
  ruleset := q.ruleset.or p.ruleset
  hostRotation := q.hostRotation.or p.hostRotation
  globalModifiers := q.globalModifiers.or p.globalModifiers
  freeMod := q.freeMod.or p.freeMod
  tournament := q.tournament.or p.tournament

theorem SettingsPatch.over_self (p : SettingsPatch) : p.over p = p := by
  simp only [SettingsPatch.over, Option.or_self]

namespace Room

theorem patched_patched (s : RoomSettings) (p q : SettingsPatch) :
    patched (patched s p) q = patched s (q.over p) := by
  simp only [patched, SettingsPatch.over, Option.getD_or]

theorem patchedPassword_patchedPassword (old : Option String) (p q : SettingsPatch) :
    patchedPassword (patchedPassword old p) q = patchedPassword old (q.over p) := by
  unfold patchedPassword SettingsPatch.over
  cases q.password with
  | none => rfl
  | some new => rfl

theorem checks_eq_ok {α : Type} {a b c : Except RoomError Unit} {x y : α} :
    (a >>= fun _ => b >>= fun _ => c >>= fun _ => (pure x : Except RoomError α)) = .ok y ↔
      a = .ok () ∧ b = .ok () ∧ c = .ok () ∧ y = x := by
  constructor
  · intro h
    obtain ⟨_, ha, h⟩ := bind_ok h
    obtain ⟨_, hb, h⟩ := bind_ok h
    obtain ⟨_, hc, h⟩ := bind_ok h
    cases h
    exact ⟨ha, hb, hc, rfl⟩
  · intro hboth
    obtain ⟨rfl, rfl, rfl, rfl⟩ := hboth
    rfl

variable {r r₁ r₂ : Room} {caller : Int32} {p q : SettingsPatch}

theorem updateSettings_eq_ok : r.updateSettings caller p = .ok r₁ ↔
    r.checkHost caller = .ok () ∧ r.checkIdle = .ok () ∧
      checkSettings (patched r.settings p).name (patched r.settings p).maxPlayers
        r.members.length = .ok () ∧
      r₁ = { r with settings := patched r.settings p,
                    password := patchedPassword r.password p } := checks_eq_ok

theorem updateSettings_over (h₁ : r.updateSettings caller p = .ok r₁)
    (h₂ : r₁.updateSettings caller q = .ok r₂) : r.updateSettings caller (q.over p) = .ok r₂ := by
  obtain ⟨hhost, hidle, -, rfl⟩ := updateSettings_eq_ok.mp h₁
  obtain ⟨-, -, hcheck, rfl⟩ := updateSettings_eq_ok.mp h₂
  simp only [patched_patched, patchedPassword_patchedPassword] at hcheck ⊢
  exact updateSettings_eq_ok.mpr ⟨hhost, hidle, hcheck, rfl⟩

theorem updateSettings_again (h : r.updateSettings caller p = .ok r₁) :
    r₁.updateSettings caller p = .ok r₁ := by
  obtain ⟨hhost, hidle, hcheck, rfl⟩ := updateSettings_eq_ok.mp h
  refine updateSettings_eq_ok.mpr ⟨hhost, hidle, ?_, ?_⟩
  all_goals simp only [patched_patched, patchedPassword_patchedPassword, SettingsPatch.over_self]
  exact hcheck

end Room

/-! ## What an accepted change does -/

/-- a field has the value that is named for it, and keeps its own if none is -/
structure Follows {α : Type} (named : Option α) (old new : α) : Prop where
  set : ∀ x, named = some x → new = x
  kept : named = none → new = old

theorem follows_getD {α : Type} (named : Option α) (old : α) :
    Follows named old (named.getD old) := by
  cases named with
  | none => exact ⟨nofun, fun _ => rfl⟩
  | some x => exact ⟨fun _ h => Option.some.inj h, nofun⟩

/-- Each field follows the change, an empty password is none, and all else is untouched. -/
structure Room.Adopts (r : Room) (p : SettingsPatch) (r' : Room) : Prop where
  name : Follows p.name r.settings.name r'.settings.name
  maxPlayers : Follows p.maxPlayers r.settings.maxPlayers r'.settings.maxPlayers
  ruleset : Follows p.ruleset r.settings.ruleset r'.settings.ruleset
  hostRotation : Follows p.hostRotation r.settings.hostRotation r'.settings.hostRotation
  globalModifiers : Follows p.globalModifiers r.settings.globalModifiers r'.settings.globalModifiers
  freeMod : Follows p.freeMod r.settings.freeMod r'.settings.freeMod
  tournament : Follows p.tournament r.settings.tournament r'.settings.tournament
  password : ∀ text, p.password = some text → text ≠ "" → r'.password = some text
  cleared : p.password = some "" → r'.password = none
  keptPassword : p.password = none → r'.password = r.password
  map : r'.settings.map = r.settings.map
  host : r'.settings.hostId = r.settings.hostId
  inProgress : r'.settings.inProgress = r.settings.inProgress
  members : r'.members = r.members
  id : r'.id = r.id
  closed : r'.closed = r.closed

theorem Room.adopts_of_ok {r r' : Room} {caller : Int32} {p : SettingsPatch}
    (h : r.updateSettings caller p = .ok r') : r.Adopts p r' := by
  obtain ⟨-, -, -, rfl⟩ := updateSettings_eq_ok.mp h
  have hpassword : ∀ text, p.password = some text →
      patchedPassword r.password p = password? (some text) := by
    intro text htext
    rw [patchedPassword, htext]
  refine ⟨follows_getD .., follows_getD .., follows_getD .., follows_getD .., follows_getD ..,
    follows_getD .., follows_getD .., fun text htext hne => ?_, fun hempty => ?_, fun hnone => ?_,
    rfl, rfl, rfl, rfl, rfl, rfl⟩
  · exact (hpassword text htext).trans (if_pos (decide_eq_true hne))
  · exact (hpassword "" hempty).trans rfl
  · show patchedPassword r.password p = r.password
    rw [patchedPassword, hnone]

/-! ## The same with four collections -/

/-- the four collections are untouched -/
structure Rolls.SameMembers (s s' : Rolls) : Prop where
  order : s'.order = s.order
  players : s'.players = s.players
  ready : s'.ready = s.ready
  withoutMap : s'.withoutMap = s.withoutMap

namespace Rolls

variable {s s₁ s₂ : Rolls} {caller : Int32} {p : SettingsPatch} {id : Int32}

theorem SameMembers.refl (s : Rolls) : s.SameMembers s := ⟨rfl, rfl, rfl, rfl⟩

theorem SameMembers.trans (h₁ : s.SameMembers s₁) (h₂ : s₁.SameMembers s₂) : s.SameMembers s₂ :=
  ⟨h₂.order.trans h₁.order, h₂.players.trans h₁.players, h₂.ready.trans h₁.ready,
    h₂.withoutMap.trans h₁.withoutMap⟩

theorem sameMembers_of_ok (h : s.updateSettings caller p = .ok s₁) : s.SameMembers s₁ := by
  obtain ⟨-, -, -, rfl⟩ := Room.checks_eq_ok.mp h
  exact ⟨rfl, rfl, rfl, rfl⟩

/-- rolls with the same collections that are the same room -/
theorem SameMembers.eq_of_room (h₁ : s.SameMembers s₁) (h₂ : s.SameMembers s₂)
    (hroom : s₁.room id = s₂.room id) : s₁ = s₂ := by
  obtain ⟨settings, password, order, players, ready, withoutMap, closed⟩ := s₁
  obtain ⟨settings', password', order', players', ready', withoutMap', closed'⟩ := s₂
  obtain ⟨rfl, rfl, rfl, rfl⟩ := h₁
  obtain ⟨rfl, rfl, rfl, rfl⟩ := h₂
  injection hroom with _ hsettings hpassword _ hclosed
  cases hsettings
  cases hpassword
  cases hclosed
  rfl

/-- what the room with one list accepts, the rolls accept -/
theorem InStep.updateSettings_of_room (h : s.InStep) {r : Room}
    (hr : (s.room id).updateSettings caller p = .ok r) :
    ∃ s₁, s.updateSettings caller p = .ok s₁ ∧ s₁.room id = r ∧ s₁.InStep := by
  obtain ⟨hsame, hstep⟩ := h.alike_updateSettings id caller p
  rw [hsame] at hr
  obtain ⟨s₁, hs₁, hroom⟩ := Room.map_ok hr
  exact ⟨s₁, hs₁, hroom, hstep s₁ hs₁⟩

theorem InStep.updateSettings_eq (h : s.InStep) (hsame : s.SameMembers s₁)
    (hr : (s.room id).updateSettings caller p = .ok (s₁.room id)) :
    s.updateSettings caller p = .ok s₁ := by
  obtain ⟨s₂, hs₂, hroom, -⟩ := h.updateSettings_of_room hr
  rw [hs₂, (sameMembers_of_ok hs₂).eq_of_room hsame hroom]

end Rolls

/-! ## The record of the settings -/

namespace RoomRef
open Routine

variable {ref : RoomRef} {w : World} {r : Room}

/-- A change of the listing that a room of a rated map accepts comes to its end, and the record of
the settings is written. -/
theorem changeListing_given (op : Room → Except RoomError Room) (hw : w.Reliable)
    (hchange : (w.hub.room ref).ListingChange r) (hrated : r.Rated)
    (hop : op (w.hub.room ref) = .ok r) :
    ∃ w', (ref.changeListing op).Ends w (.ok ()) w' ∧
      World.Recorded { w with hub := w.hub.setRoom ref r } [.listing ref.id r.listing] w' := by
  let w₁ : World := { w with hub := w.hub.setRoom ref r }
  have hlive : (w₁.hub.room ref).liveListing = some r.listing := by
    show ((w.hub.setRoom ref r).room ref).liveListing = _
    rw [Hub.room_setRoom (Hub.made_of_open hchange.wasOpen),
      Room.liveListing_of_open hchange.isOpen]
  -- the loop finds what was written just before, and stops
  have hstop : ref.listingTurn (some r.listing) (w₁.update (.listing ref.id r.listing)).hub =
      .stop () := by
    have hagrees : r.listing.agrees r.listing = true := Listing.agrees_refl hrated
    rw [listingTurn, World.update_hub, hlive]
    exact if_pos hagrees
  have hwrite : (ref.writeListing r.listing).Ends w₁ ()
      (w₁.update (.listing ref.id r.listing)) := by
    refine ends_bind.mpr ⟨(), _, ends_update.mpr rfl, ?_⟩
    exact (ends_settling_of_stop hstop).mpr ⟨rfl, rfl⟩
  refine ⟨_, ends_bind.mpr ⟨.ok r.listing, w₁, ends_transact.mpr ?_, ?_⟩,
    recorded_writeListing hw hlive hwrite⟩
  · dsimp only
    rw [hop]
    exact ⟨rfl, rfl⟩
  · exact ends_bind.mpr ⟨(), _, hwrite, ends_done.mpr ⟨rfl, rfl⟩⟩

/-- Two changes of a room's settings, carried out one after another, and both as one come to their
ends.  They leave the same memory and the same records, and the record of the settings is that of
the room `r`. -/
def CarriesOut (ref : RoomRef) (w : World) (caller : Int32) (p q : SettingsPatch) (r : Room) :
    Prop :=
  ∃ w₁ w₂ w', (ref.updateSettings caller p).Ends w (.ok ()) w₁ ∧
    (ref.updateSettings caller q).Ends w₁ (.ok ()) w₂ ∧
    (ref.updateSettings caller (q.over p)).Ends w (.ok ()) w' ∧
    w₂.hub.room ref = r ∧ w₂.record (Key.room ref.id).text = some (.listing r.listing) ∧
    w'.hub = w₂.hub ∧ ∀ key, w'.record key = w₂.record key

theorem carriesOut_of_ok {caller : Int32} {p q : SettingsPatch} {r₁ r₂ : Room} (hw : w.Reliable)
    (hrated : (w.hub.room ref).Rated) (h₁ : (w.hub.room ref).updateSettings caller p = .ok r₁)
    (h₂ : r₁.updateSettings caller q = .ok r₂) : ref.CarriesOut w caller p q r₂ := by
  have hboth := Room.updateSettings_over h₁ h₂
  have hchange₁ := Room.updateSettings_ok h₁
  have hchange₂ := Room.updateSettings_ok h₂
  have hmade := Hub.made_of_open hchange₁.wasOpen
  have hrated₁ := hchange₁.rated hrated
  have hrated₂ := hchange₂.rated hrated₁
  obtain ⟨w₁, hends₁, hleft₁⟩ :=
    changeListing_given (·.updateSettings caller p) hw hchange₁ hrated₁ h₁
  have hroom₁ : w₁.hub.room ref = r₁ := by
    rw [hleft₁.hub]
    exact Hub.room_setRoom hmade r₁
  rw [← hroom₁] at hchange₂ h₂
  obtain ⟨w₂, hends₂, hleft₂⟩ := changeListing_given (·.updateSettings caller q) hleft₁.reliable
    hchange₂ hrated₂ h₂
  obtain ⟨w', hends, hleft⟩ := changeListing_given (·.updateSettings caller (q.over p)) hw
    (Room.updateSettings_ok hboth) hrated₂ hboth
  have hhub₂ : w₂.hub = w.hub.setRoom ref r₂ := by
    rw [hleft₂.hub, hleft₁.hub]
    exact Hub.setRoom_setRoom w.hub ref r₁ r₂
  -- the second write of the record replaces the first one
  have hrecord : ∀ key, w'.record key = w₂.record key := by
    intro key
    have hfirst := hleft₁.record key
    have hsecond := hleft₂.record key
    have hone := hleft.record key
    simp only [World.record, Update.leaveAll, List.foldl_cons, List.foldl_nil, Update.listing,
      Call.leaves] at hfirst hsecond hone ⊢
    rw [hone, hsecond, hfirst]
    split <;> rfl
  refine ⟨w₁, w₂, w', hends₁, hends₂, hends, ?_, ?_, hleft.hub.trans hhub₂.symm, hrecord⟩
  · rw [hhub₂]
    exact Hub.room_setRoom hmade r₂
  · rw [hleft₂.record]
    exact (Update.leaves_listing _ _ ref.id r₂.listing).trans (if_pos rfl)

end RoomRef

/-! ## The law -/

/-- In a room that has undergone any moves, let its host make a change of its settings that is
accepted.  The change sets what it names and leaves all else as it was, and made once more it
changes nothing.  If another change is accepted after it, both as one are accepted in the first
place, and come to the same.  All this is so whether the members are kept in one list or in four
collections, and whether one looks at the room or at its record in a store that takes all calls. -/
theorem settings_changes_compose (id : Int32) (settings : RoomSettings) (password : Option String)
    (host : PlayerProfile) (moves : List RoomMove) (caller : Int32) (p : SettingsPatch) :
    let r := (Room.create id settings password host).after moves
    let s := (Rolls.create settings password host).after moves
    ∀ r₁, r.updateSettings caller p = .ok r₁ →
      ∃ s₁, s.updateSettings caller p = .ok s₁ ∧ (s.room id = r ∧ s₁.room id = r₁) ∧
        (r.Adopts p r₁ ∧ s.SameMembers s₁) ∧
        (r₁.updateSettings caller p = .ok r₁ ∧ s₁.updateSettings caller p = .ok s₁) ∧
        ∀ q r₂, r₁.updateSettings caller q = .ok r₂ →
          r.updateSettings caller (q.over p) = .ok r₂ ∧
          (∃ s₂, s₁.updateSettings caller q = .ok s₂ ∧ s₂.room id = r₂ ∧
            s.updateSettings caller (q.over p) = .ok s₂) ∧
          (r.Rated → ∀ (ref : RoomRef) (w : World), w.Reliable → w.hub.room ref = r →
            ref.CarriesOut w caller p q r₂) := by
  intro r s r₁ h₁
  have hafter := (Rolls.inStep_create settings password host).after id moves
  rw [Rolls.room_create] at hafter
  have hroom : s.room id = r := hafter.1
  have hstep : s.InStep := hafter.2
  have hagain := Room.updateSettings_again h₁
  obtain ⟨s₁, hs₁, hroom₁, hstep₁⟩ := hstep.updateSettings_of_room (hroom ▸ h₁)
  have hsame₁ := Rolls.sameMembers_of_ok hs₁
  have hstays : (s₁.room id).updateSettings caller p = .ok (s₁.room id) := by
    rw [hroom₁]
    exact hagain
  refine ⟨s₁, hs₁, ⟨hroom, hroom₁⟩, ⟨Room.adopts_of_ok h₁, hsame₁⟩,
    ⟨hagain, hstep₁.updateSettings_eq (.refl s₁) hstays⟩, fun q r₂ h₂ => ?_⟩
  have hboth := Room.updateSettings_over h₁ h₂
  obtain ⟨s₂, hs₂, hroom₂, -⟩ := hstep₁.updateSettings_of_room (hroom₁ ▸ h₂)
  have hsame := hsame₁.trans (Rolls.sameMembers_of_ok hs₂)
  have hjoint : (s.room id).updateSettings caller (q.over p) = .ok (s₂.room id) := by
    rw [hroom, hroom₂]
    exact hboth
  refine ⟨hboth, ⟨s₂, hs₂, hroom₂, hstep.updateSettings_eq hsame hjoint⟩,
    fun hrated ref w hw hin => ?_⟩
  exact RoomRef.carriesOut_of_ok hw (hin.symm ▸ hrated) (hin.symm ▸ h₁) h₂

namespace SettingsPatch

/-- a name, a password and teams for the last round -/
def finals : SettingsPatch :=
  { SettingsPatch.empty with name := some "finals", password := some "pw", ruleset := some .team }

/-- two members at most, and no password any more -/
def duel : SettingsPatch :=
  { SettingsPatch.empty with password := some "", maxPlayers := some 2 }

end SettingsPatch

open RoomMove SettingsPatch in
theorem settings_changes_compose_finals :
    let r := (Room.create 1 den none ⟨7, "ada", "", "", ""⟩).after
      [.join ⟨8, "bea", "", "", ""⟩ none]
    let w : World := { World.blank with hub := { World.blank.hub with rooms := [r] } }
    ∃ r₁ r₂, r.updateSettings 7 finals = .ok r₁ ∧ r₁.password = some "pw" ∧
      r₁.updateSettings 7 duel = .ok r₂ ∧ r₂.password = none ∧ r₂.settings.name = "finals" ∧
      r.updateSettings 7 (duel.over finals) = .ok r₂ ∧
      RoomRef.CarriesOut ⟨0, 1⟩ w 7 finals duel r₂ := by
  intro r w
  let r₁ : Room := { r with
    settings := { r.settings with name := "finals", ruleset := .team }, password := some "pw" }
  let r₂ : Room := { r₁ with settings := { r₁.settings with maxPlayers := 2 }, password := none }
  have h₁ : r.updateSettings 7 finals = .ok r₁ := by decide +kernel
  have h₂ : r₁.updateSettings 7 duel = .ok r₂ := by decide +kernel
  have hrated : r.Rated := by
    show Binary64.isNaN .zero = false
    decide
  have hlaw := settings_changes_compose 1 den none ⟨7, "ada", "", "", ""⟩
    [.join ⟨8, "bea", "", "", ""⟩ none] 7 finals
  obtain ⟨s₁, -, -, -, -, hnext⟩ := hlaw r₁ h₁
  obtain ⟨hboth, -, hcarried⟩ := hnext duel r₂ h₂
  exact ⟨r₁, r₂, h₁, rfl, h₂, rfl, rfl, hboth, hcarried hrated ⟨0, 1⟩ w World.reliable_blank rfl⟩

end RhythmLobby
