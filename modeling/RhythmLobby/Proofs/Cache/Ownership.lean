import RhythmLobby.Proofs.Cache.Landing

/-!
# Whose records an update touches

An update names the records it is about by their keys.  As no two records share a key, it leaves
the records of everyone else alone, also when its call fails.

* `Update.About`                an update about single records, and the keys of these;
* `World.record_update_other`   other records stay as they are.
-/

namespace RhythmLobby
open Cache

namespace Cache

/-- An update about single records, and the keys of these.  Only the clearing of an area is about
records that it does not name. -/
inductive Update.About : Update → List Key → Prop where
  | session (token : String) (user : Int32) : About (.session token user) [.session token]
  /-- the status belongs to the same user as the session -/
  | noSession (token : String) (user : Int32) :
    About (.noSession token user) [.session token, .status user]
  | status (user : Int32) (s : ClientStatus) : About (.status user s) [.status user]
  | noStatus (user : Int32) : About (.noStatus user) [.status user]
  | onlineCount (count : Nat) : About (.onlineCount count) [.online]
  | listing (room : Int32) (l : Listing) : About (.listing room l) [.room room]
  | player (room : Int32) (p : PlayerRecord) :
    About (.player room p) [.player room p.profile.userId]
  | noPlayer (room user : Int32) : About (.noPlayer room user) [.player room user]
  | noRoom (room : Int32) (members : List Int32) :
    About (.noRoom room members) (.room room :: members.map (.player room))

theorem Update.About.leaves {u : Update} {keys : List Key} (h : u.About keys) {key : String}
    (hkey : key ∉ keys.map Key.text) (r : Option Record) : u.call.leaves key r = r := by
  have hset (k : Key) (hk : key ∉ [k].map Key.text) : k.text ≠ key := fun heq =>
    hk (List.mem_singleton.mpr heq.symm)
  cases h with
  | noSession | noStatus | noPlayer => exact if_neg hkey
  | noRoom room members =>
    rw [List.map_cons, List.map_map] at hkey
    exact if_neg hkey
  | _ => exact if_neg (hset _ hkey)

/-- a call that would leave a key alone does so, whether it reaches the store or not -/
theorem Journal.get?_call_other (j : Journal) {c : Call} {key : String}
    (h : ∀ r, c.leaves key r = r) : (j.call c).2.store.get? key = j.store.get? key := by
  unfold call
  split
  · rfl
  · cases hp : perform j.store c with
    | ok r => exact (get?_perform hp key).trans (h _)
    | error e => rfl

end Cache

theorem World.record_update_other {u : Update} {keys : List Key} (h : u.About keys) (w : World)
    {key : String} (hkey : key ∉ keys.map Key.text) : (w.update u).record key = w.record key := by
  rw [record, update_cache]
  exact Journal.get?_call_other _ (h.leaves hkey)

/-- Two records of the server never share a key: neither two of one kind, whatever the token and
the ids are, nor two of different kinds.  An update of some records thus leaves all others as they
were, and no less if its call on the store fails. -/
theorem records_have_keys_of_their_own :
    -- one kind
    (∀ s t : String, (Key.session s).text = (Key.session t).text ↔ s = t) ∧
    (∀ u v : Int32, (Key.status u).text = (Key.status v).text ↔ u = v) ∧
    (∀ a b : Int32, (Key.room a).text = (Key.room b).text ↔ a = b) ∧
    (∀ a u b v : Int32, (Key.player a u).text = (Key.player b v).text ↔ a = b ∧ u = v) ∧
    -- different kinds
    (∀ (token : String) (user id room member : Int32),
      ["server:online_users", (Key.session token).text, (Key.status user).text,
        (Key.room id).text, (Key.player room member).text].Nodup) ∧
    -- updates
    ∀ (u : Update) (keys : List Key), u.About keys → ∀ (w : World) (key : Key), key ∉ keys →
      (w.update u).record key.text = w.record key.text := by
  refine ⟨?_, ?_, ?_, ?_, ?_, ?_⟩
  · simp
  · simp
  · simp
  · simp
  · intro token user id room member
    have honline : "server:online_users" = Key.online.text := rfl
    simp [honline]
  · intro u keys h w key hkey
    apply World.record_update_other h
    intro hmem
    obtain ⟨k, hk, heq⟩ := List.mem_map.mp hmem
    exact hkey (Key.text_injective heq ▸ hk)

/-! ## Rooms and members with the same digits -/

/-- records with similar keys -/
def Cache.lookalikes : Store := .ofList
  [((Key.room 1).text, .text "a"), ((Key.player 1 11).text, .text "b"),
    ((Key.player 1 (-1)).text, .text "c"), ((Key.room 11).text, .text "d"),
    ((Key.player 11 1).text, .text "e"), ((Key.player (-1) 1).text, .text "f")]

/-- a server with such a store -/
def World.crowded : World :=
  { World.blank with cache := { World.blank.cache with store := lookalikes } }

/-- a room is removed with two of its members -/
theorem records_have_keys_of_their_own_crowded :
    let w := World.crowded.update (.noRoom 1 [11, -1])
    w.record (Key.room 11).text = World.crowded.record (Key.room 11).text ∧
    w.record (Key.player 11 1).text = World.crowded.record (Key.player 11 1).text ∧
    w.record (Key.player (-1) 1).text = World.crowded.record (Key.player (-1) 1).text ∧
    w.cache.store.keys =
      [(Key.room 11).text, (Key.player 11 1).text, (Key.player (-1) 1).text] := by
  obtain ⟨-, -, -, -, -, hother⟩ := records_have_keys_of_their_own
  have h := hother _ _ (.noRoom 1 [11, -1]) World.crowded
  refine ⟨h (.room 11) ?_, h (.player 11 1) ?_, h (.player (-1) 1) ?_, ?_⟩
  · decide
  · decide
  · decide
  · decide +kernel

end RhythmLobby
