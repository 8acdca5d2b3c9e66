import RhythmLobby.Proofs.Cache.Landing
import RhythmLobby.Proofs.Number.Display

/-!
# A record is known by its fields

* `Table.entries_ofList`     entries with different keys are all kept;
* `Table.entries_ofList_inj`   entries with the same keys are known by what a look-up sees;
* `Cache.statusFields_injective` and its like   a record is known by its list of fields.
-/

namespace RhythmLobby

/-! ## Tables of given entries -/

namespace Table

variable {κ ν : Type} [DecidableEq κ]

theorem entries_foldl_insert {entries : List (κ × ν)} {t : Table κ ν}
    (h : ((t.entries ++ entries).map (·.1)).Nodup) :
    (entries.foldl (fun t e => t.insert e.1 e.2) t).entries = t.entries ++ entries := by
  induction entries generalizing t with
  | nil => exact (List.append_nil _).symm
  | cons e rest ih =>
    have hnew : e.1 ∉ t.entries.map (·.1) := by
      rw [List.map_append, List.map_cons, List.nodup_append] at h
      intro hmem
      exact h.2.2 _ hmem _ List.mem_cons_self rfl
    have hinsert : (t.insert e.1 e.2).entries = t.entries ++ [e] := by
      rw [insert, dif_neg hnew]
    have hsame : t.entries ++ e :: rest = (t.insert e.1 e.2).entries ++ rest := by
      rw [hinsert, List.append_assoc]
      rfl
    rw [hsame] at h ⊢
    exact ih h

theorem entries_ofList {entries : List (κ × ν)} (h : (entries.map (·.1)).Nodup) :
    (ofList entries).entries = entries := entries_foldl_insert h

theorem entries_eq_map (t : Table κ ν) (default : ν) :
    t.entries = t.keys.map fun k => (k, (t.get? k).getD default) := by
  rw [keys, List.map_map]
  conv => lhs; rw [← List.map_id t.entries]
  apply List.map_congr_left
  intro e he
  simp [get?_of_mem he]

theorem entries_ofList_inj {a b : List (κ × ν)} (default : ν) (ha : (a.map (·.1)).Nodup)
    (hkeys : a.map (·.1) = b.map (·.1)) (h : ∀ k, (ofList a).get? k = (ofList b).get? k) :
    a = b := by
  have hb : (b.map (·.1)).Nodup := hkeys ▸ ha
  calc a = (ofList a).entries := (entries_ofList ha).symm
    _ = (ofList b).entries := by
      rw [entries_eq_map _ default, entries_eq_map (ofList b) default, keys, keys,
        entries_ofList ha, entries_ofList hb, hkeys]
      simp only [h]
    _ = b := entries_ofList hb

end Table

/-! ## Texts of values -/

@[simp] theorem wholeText_inj {m n : Int} : wholeText m = wholeText n ↔ m = n :=
  ⟨wholeText_injective, fun h => h ▸ rfl⟩

theorem numbers_injective : Function.Injective GameMode.number ∧
    Function.Injective Ruleset.number ∧ Function.Injective FreeMod.number := by
  refine ⟨?_, ?_, ?_⟩
  all_goals
    intro a b h
    cases a <;> cases b <;> first | rfl | cases h

namespace Cache

theorem flag_injective {a b : Bool} (h : flag a = flag b) : a = b := by
  revert h
  cases a <;> cases b <;> decide

/-! ## Records -/

theorem statusFields_injective {s s' : ClientStatus} (h : statusFields s = statusFields s') :
    s = s' := by
  simp only [statusFields, List.cons.injEq, Prod.mk.injEq, true_and, and_true, wholeText_inj,
    Int.natCast_inj, Int32.toInt_inj, Int64.toInt_inj] at h
  obtain ⟨hactivity, hmap, hmd5, hmode, hcontent, hmodifiers⟩ := h
  have hactivity := Activity.number_inj hactivity
  have hmode := numbers_injective.1 hmode
  cases s
  cases s'
  simp_all

/-- the text of the difficulty has to tell the two difficulties apart -/
theorem listingFields_injective {l l' : Listing}
    (hdifficulty : difficultyLayout.text l.settings.map.difficulty =
        difficultyLayout.text l'.settings.map.difficulty →
      l.settings.map.difficulty = l'.settings.map.difficulty)
    (h : listingFields l = listingFields l') : l = l' := by
  simp only [listingFields, List.cons.injEq, Prod.mk.injEq, true_and, and_true, wholeText_inj,
    Int.natCast_inj, UInt8.toNat_inj, Int32.toInt_inj, Int64.toInt_inj] at h
  obtain ⟨hname, hpassword, hsize, hmd5, hid, hmapset, hmap, hhost, hruleset, hrotation, hmode,
    htext, hprogress, hmodifiers, hfree, htournament⟩ := h
  have hpassword := flag_injective hpassword
  obtain ⟨hmodes, hrulesets, hfrees⟩ := numbers_injective
  have hruleset := hrulesets hruleset
  have hrotation := flag_injective hrotation
  have hmode := hmodes hmode
  have hdifficulty := hdifficulty htext
  have hprogress := flag_injective hprogress
  have hfree := hfrees hfree
  have htournament := flag_injective htournament
  obtain ⟨⟨_, _, ⟨_, _, _, _, _, _⟩, _, _, _, _, _, _, _⟩, _⟩ := l
  obtain ⟨⟨_, _, ⟨_, _, _, _, _, _⟩, _, _, _, _, _, _, _⟩, _⟩ := l'
  simp_all

theorem playerFields_injective {p p' : PlayerRecord} (h : playerFields p = playerFields p') :
    p = p' := by
  simp only [playerFields, List.cons.injEq, Prod.mk.injEq, true_and, and_true, wholeText_inj,
    Int.natCast_inj, UInt32.toNat_inj, Int32.toInt_inj, Int64.toInt_inj] at h
  obtain ⟨hid, hname, hsteam, havatar, hcountry, hwins, hmodifiers, hready, hmap⟩ := h
  have hready := flag_injective hready
  have hmap := flag_injective hmap
  obtain ⟨⟨_, _, _, _, _⟩, _, _, _, _⟩ := p
  obtain ⟨⟨_, _, _, _, _⟩, _, _, _, _⟩ := p'
  simp_all

/-! ## Names -/

theorem names_statusFields (s : ClientStatus) :
    (statusFields s).map (·.1) = ["s", "mid", "md5", "gm", "c", "m"] := by
  simp only [statusFields, List.map_cons, List.map_nil]

theorem names_listingFields (l : Listing) : (listingFields l).map (·.1) =
    ["n", "pw", "mp", "md5", "mid", "msid", "map", "host", "r", "hr", "gm", "d", "inp", "m", "fm",
      "trn"] := by
  simp only [listingFields, List.map_cons, List.map_nil]

theorem names_playerFields (p : PlayerRecord) :
    (playerFields p).map (·.1) = ["id", "u", "sid", "a", "c", "w", "m", "r", "hm"] := by
  simp only [playerFields, List.map_cons, List.map_nil]

/-! ## Stored records -/

/-- the fields are stored under the key, and nothing else -/
def Store.Shows (s : Store) (key : String) (fields : Fields) : Prop :=
  ∃ t : Table String String, s.get? key = some (.hash t) ∧ t.entries = fields

/-- the same text under every name -/
def Fields.Match (a b : Fields) : Prop :=
  ∀ name, (Table.ofList a).get? name = (Table.ofList b).get? name

theorem shows_hash (s : Store) (key : String) {fields : Fields} (h : (fields.map (·.1)).Nodup) :
    ∃ s', perform s (.hash key fields) = .ok (none, s') ∧ s'.Shows key fields := by
  refine ⟨_, rfl, Table.ofList fields, ?_, Table.entries_ofList h⟩
  rw [Table.get?_insert, if_pos rfl]

end Cache

open Cache

/-- The fields of a record have different names, so that a hash keeps them all, and the texts under
these names determine the record.  Of a listing this takes that the difficulties are told apart by
their texts, as all finite numbers are. -/
theorem records_known_by_fields :
    -- the names differ
    (∀ s : ClientStatus, ((statusFields s).map (·.1)).Nodup) ∧
    (∀ l : Listing, ((listingFields l).map (·.1)).Nodup) ∧
    (∀ p : PlayerRecord, ((playerFields p).map (·.1)).Nodup) ∧
    -- every field is kept
    (∀ (store : Store) (user : Int32) (s : ClientStatus), ∃ store',
      perform store (Update.status user s).call = .ok (none, store') ∧
        store'.Shows (Key.status user).text (statusFields s)) ∧
    (∀ (store : Store) (room : Int32) (l : Listing), ∃ store',
      perform store (Update.listing room l).call = .ok (none, store') ∧
        store'.Shows (Key.room room).text (listingFields l)) ∧
    (∀ (store : Store) (room : Int32) (p : PlayerRecord), ∃ store',
      perform store (Update.player room p).call = .ok (none, store') ∧
        store'.Shows (Key.player room p.profile.userId).text (playerFields p)) ∧
    -- the texts determine the record
    (∀ s s' : ClientStatus, (statusFields s).Match (statusFields s') → s = s') ∧
    (∀ l l' : Listing,
      (difficultyLayout.text l.settings.map.difficulty =
          difficultyLayout.text l'.settings.map.difficulty →
        l.settings.map.difficulty = l'.settings.map.difficulty) →
      (listingFields l).Match (listingFields l') → l = l') ∧
    (∀ p p' : PlayerRecord, (playerFields p).Match (playerFields p') → p = p') ∧
    -- and finite numbers have different texts
    ∀ x y : Binary64, x.isFinite = true → y.isFinite = true →
      difficultyLayout.text x = difficultyLayout.text y → x = y := by
  have hstatus (s : ClientStatus) : ((statusFields s).map (·.1)).Nodup := by
    rw [names_statusFields]
    decide
  have hlisting (l : Listing) : ((listingFields l).map (·.1)).Nodup := by
    rw [names_listingFields]
    decide
  have hplayer (p : PlayerRecord) : ((playerFields p).map (·.1)).Nodup := by
    rw [names_playerFields]
    decide
  refine ⟨hstatus, hlisting, hplayer, ?_, ?_, ?_, ?_, ?_, ?_, ?_⟩
  · intro store user s
    exact shows_hash store _ (hstatus s)
  · intro store room l
    exact shows_hash store _ (hlisting l)
  · intro store room p
    exact shows_hash store _ (hplayer p)
  · intro s s' h
    have hnames := (names_statusFields s).trans (names_statusFields s').symm
    exact statusFields_injective (Table.entries_ofList_inj "" (hstatus s) hnames h)
  · intro l l' hdifficulty h
    have hnames := (names_listingFields l).trans (names_listingFields l').symm
    exact listingFields_injective hdifficulty
      (Table.entries_ofList_inj "" (hlisting l) hnames h)
  · intro p p' h
    have hnames := (names_playerFields p).trans (names_playerFields p').symm
    exact playerFields_injective (Table.entries_ofList_inj "" (hplayer p) hnames h)
  · intro x y _ _ h
    exact Layout.text_injective (fun _ => rfl) h

/-! ## Records that are nearly the same -/

/-- a room whose map has two different ids -/
def Listing.submitted : Listing :=
  ⟨.fresh "room" 4 ⟨1, -1, "m", "m", .keys4, .zero⟩ 7, false⟩

/-- the same room, where the ids of the map are exchanged and its difficulty has a sign -/
def Listing.exchanged : Listing :=
  ⟨.fresh "room" 4 ⟨-1, 1, "m", "m", .keys4, Binary64.zero.neg⟩ 7, false⟩

/-- the same room again, where the difficulty was rounded -/
def Listing.rounded : Listing :=
  ⟨.fresh "room" 4 ⟨1, -1, "m", "m", .keys4, .nearest false 1 (pow10 400)⟩ 7, false⟩

/-- The rounded listing has the fields of the first one and is the same.  The exchanged listing has
another map of fields, although its difficulty is the same number. -/
theorem records_known_by_fields_submitted :
    (∃ store, perform ∅ (Update.listing (-1) .submitted).call = .ok (none, store) ∧
      store.Shows (Key.room (-1)).text (listingFields .submitted)) ∧
    Listing.rounded = .submitted ∧
    Listing.submitted.settings.map.difficulty.eqv Listing.exchanged.settings.map.difficulty ∧
    ¬ (listingFields .submitted).Match (listingFields .exchanged) := by
  obtain ⟨-, -, -, -, hstored, -, -, hlisting, -, hfinite⟩ := records_known_by_fields
  have hsubmitted : Listing.submitted.settings.map.difficulty.isFinite = true := by decide +kernel
  refine ⟨hstored ∅ (-1) .submitted, ?_, by decide +kernel, ?_⟩
  · have hfields : listingFields .rounded = listingFields .submitted := by decide +kernel
    exact hlisting _ _ (hfinite _ _ (by decide +kernel) hsubmitted) fun name => by rw [hfields]
  · intro hmatch
    have hsame := hlisting _ _ (hfinite _ _ hsubmitted (by decide +kernel)) hmatch
    have hid : (1 : Int32) = -1 := congrArg (·.settings.map.id) hsame
    exact absurd hid (by decide)

end RhythmLobby
