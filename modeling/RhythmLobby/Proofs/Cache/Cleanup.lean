import RhythmLobby.Proofs.Cache.Landing

/-!
# What the cleanup at the start removes

Records of an earlier run are cleared by patterns that end in a star.  Such a pattern is the set of
all texts with a given beginning, and no key begins in two of the ways that are cleared.

* `Glob.parse_starred`, `Glob.accepts_starred`   patterns that end in a star;
* `Cache.removed_of_deleteMatching`   a clearing says how many records it removed;
* `Area.holds`              the keys that are cleared together;
* `Key.leftover_text`       which keys of the server are cleared;
* `World.clear_all`         some areas cleared one after another;
* `startup_cleanup_exact`   what is left, and what was counted.
-/

namespace RhythmLobby
open Cache

/-! ## Patterns that end in a star -/

namespace Glob

/-- a character that stands for itself in a pattern -/
def isPlain (c : Char) : Bool := c ≠ '?' ∧ c ≠ '*' ∧ c ≠ '['

theorem tokens_starred (cs : List Char) (hplain : cs.all isPlain = true) (pos : Nat)
    (before : Option Char) :
    tokens 0 pos before (cs ++ ['*']) = .ok (cs.map .char ++ [.anyText]) := by
  induction cs generalizing pos before with
  | nil => rfl
  | cons c cs ih =>
    rw [List.all_cons, Bool.and_eq_true] at hplain
    have hc : c ≠ '?' ∧ c ≠ '*' ∧ c ≠ '[' := by simpa [isPlain] using hplain.1
    rw [List.cons_append, tokens, if_neg hc.1, if_neg hc.2.1, if_neg hc.2.2]
    simp only [ih hplain.2]
    rfl

theorem parse_starred (start : String) (hplain : start.toList.all isPlain = true) :
    parse (start ++ "*") = .ok (start.toList.map .char ++ [.anyText]) := by
  rw [parse, String.toList_append]
  exact tokens_starred _ hplain 0 none

theorem accepts_starred (start cs : List Char) :
    accepts (start.map .char ++ [.anyText]) cs = start.isPrefixOf cs := by
  induction start generalizing cs with
  | nil =>
    have hrest : accepts [] = List.isEmpty := funext fun ds => by rw [accepts]
    rw [List.map_nil, List.nil_append, accepts, hrest, someSuffix_isEmpty]
    rfl
  | cons c start ih =>
    cases cs with
    | nil => rfl
    | cons d cs =>
      rw [List.map_cons, List.cons_append, accepts, ih]
      rfl

end Glob

/-! ## One clearing -/

namespace Table

variable {κ ν : Type}

theorem size_keep_not (t : Table κ ν) (p : κ → Bool) :
    (t.keep fun k => !p k).size + t.keys.countP p = t.size := by
  rw [size, keep, ← List.countP_eq_length_filter, keys, List.countP_map, size,
    t.entries.length_eq_countP_add_countP (p ∘ (·.1)), Nat.add_comm]
  simp [Function.comp_def]

theorem keep_keep (t : Table κ ν) (p q : κ → Bool) :
    (t.keep p).keep q = t.keep fun k => p k && q k := by
  apply eq_of_entries
  show List.filter _ (List.filter _ _) = List.filter _ _
  rw [List.filter_filter]
  simp only [Bool.and_comm]

theorem keys_keep (t : Table κ ν) (p : κ → Bool) : (t.keep p).keys = t.keys.filter p := by
  rw [keys, keep, keys, List.filter_map]
  rfl

end Table

namespace Cache

theorem perform_of_parse (s : Store) {pattern : String} {ts : List Glob.Token}
    (hp : Glob.parse pattern = .ok ts) : perform s (.deleteMatching pattern) =
      .ok (some (s.keys.countP fun key => Glob.accepts ts key.toList),
        s.keep fun key => !Glob.accepts ts key.toList) := by
  rw [perform, hp]
  simp only [Glob.covers_eq_accepts]
  have hsize := s.size_keep_not fun key => Glob.accepts ts key.toList
  refine congrArg (fun n => Except.ok (some n, _)) ?_
  omega

theorem removed_of_deleteMatching {s s' : Store} {pattern : String} {removed : Option Nat}
    (h : perform s (.deleteMatching pattern) = .ok (removed, s')) :
    s'.entries.Sublist s.entries ∧ ∃ n, removed = some n ∧ s'.size + n = s.size := by
  cases hp : Glob.parse pattern with
  | error e =>
    rw [perform, hp] at h
    cases h
  | ok ts =>
    rw [perform_of_parse s hp] at h
    cases h
    exact ⟨List.filter_sublist, _, rfl, s.size_keep_not _⟩

/-! ## The areas -/

namespace Area

def all : List Area := [.sessions, .statuses, .rooms]

theorem mem_areas (a : Area) : a ∈ all := by cases a <;> decide

/-- how the keys of an area begin -/
def start : Area → String
  | sessions => "server:session:"
  | statuses => "server:user_status:"
  | rooms => "server:multiplayer:"

/-- a key is cleared with the others of an area -/
def holds (a : Area) (key : String) : Bool := a.start.toList.isPrefixOf key.toList

/-- the character that tells the keys of different areas apart -/
def mark : Area → Char
  | sessions => 's'
  | statuses => 'u'
  | rooms => 'm'

theorem mark_injective {a b : Area} (h : a.mark = b.mark) : a = b := by
  cases a <;> cases b <;> first | rfl | exact absurd h (by decide)

theorem parse_pattern (a : Area) :
    Glob.parse a.pattern = .ok (a.start.toList.map .char ++ [.anyText]) := by
  cases a with
  | sessions => exact Glob.parse_starred "server:session:" (by decide)
  | statuses => exact Glob.parse_starred "server:user_status:" (by decide)
  | rooms => exact Glob.parse_starred "server:multiplayer:" (by decide)

theorem perform_pattern (s : Store) (a : Area) : perform s (.deleteMatching a.pattern) =
    .ok (some (s.keys.countP a.holds), s.keep fun key => !a.holds key) := by
  rw [perform_of_parse s a.parse_pattern]
  simp only [Glob.accepts_starred]
  rfl

theorem holds_iff {a : Area} {key : String} :
    a.holds key = true ↔ a.start.toList <+: key.toList := List.isPrefixOf_iff_prefix

/-- the mark of an area is the eighth character of its keys -/
theorem getElem?_of_holds {a : Area} {key : String} (h : a.holds key = true) :
    key.toList[7]? = some a.mark := by
  obtain ⟨rest, hrest⟩ := holds_iff.mp h
  have hmark : a.start.toList[7]? = some a.mark := by cases a <;> decide
  have hlt := (List.getElem?_eq_some_iff.mp hmark).1
  rw [← hrest, List.getElem?_append_left hlt, hmark]

theorem eq_of_holds {a b : Area} {key : String} (ha : a.holds key = true)
    (hb : b.holds key = true) : a = b := by
  refine mark_injective (Option.some.inj ?_)
  rw [← getElem?_of_holds ha, getElem?_of_holds hb]

theorem countP_apart {a b : Area} (hne : a ≠ b) (keys : List String) :
    (keys.filter fun key => !a.holds key).countP b.holds = keys.countP b.holds := by
  rw [List.countP_filter]
  refine List.countP_congr fun key _ => ?_
  rw [Bool.and_eq_true, and_iff_left_iff_imp]
  intro hb
  rw [Bool.not_eq_true', Bool.eq_false_iff]
  exact fun ha => hne (eq_of_holds ha hb)

theorem holds_append (a : Area) (rest : String) : a.holds (a.start ++ rest) = true := by
  rw [holds_iff, String.toList_append]
  exact List.prefix_append ..

end Area

/-- a key that the cleanup removes -/
def leftover (key : String) : Bool := Area.all.any (·.holds key)

theorem leftover_eq (key : String) : leftover key =
    (Area.sessions.holds key || Area.statuses.holds key || Area.rooms.holds key) := by
  simp [leftover, Area.all, Bool.or_assoc]

/-- the area of a key of the server -/
def Key.area? : Key → Option Area
  | session _ => some .sessions
  | status _ => some .statuses
  | online => none
  | room _ => some .rooms
  | player _ _ => some .rooms

theorem Key.holds_area {k : Key} {a : Area} (h : k.area? = some a) : a.holds k.text = true := by
  cases k with
  | online => cases h
  | session token =>
    cases h
    exact Area.sessions.holds_append token
  | status user =>
    cases h
    exact Area.statuses.holds_append _
  | room id =>
    cases h
    exact Area.rooms.holds_append _
  | player id user =>
    cases h
    have htext : (player id user).text = Area.rooms.start ++
        (wholeText id.toInt ++ ":player:" ++ wholeText user.toInt) := by
      rw [← String.append_assoc, ← String.append_assoc]
      rfl
    rw [htext]
    exact Area.rooms.holds_append _

theorem leftover_online : leftover Key.online.text = false := by decide

theorem Key.leftover_text (k : Key) : leftover k.text = true ↔ k ≠ .online := by
  constructor
  · intro h heq
    subst heq
    rw [leftover_online] at h
    cases h
  · intro h
    obtain ⟨a, ha⟩ : ∃ a, k.area? = some a := by
      cases k with
      | online => exact absurd rfl h
      | _ => exact ⟨_, rfl⟩
    exact List.any_eq_true.mpr ⟨a, a.mem_areas, k.holds_area ha⟩

end Cache

/-! ## The cleanup -/

/-- the clearing of an area, under the name of its part of the cleanup -/
def Cache.Area.clearing (a : Area) : Update :=
  ⟨if a = .rooms then "clear_rooms" else "clear_sessions", .deleteMatching a.pattern⟩

/-- the note of a clearing that removed some records -/
def Cache.Area.cleared (a : Area) (n : Nat) : Entry :=
  ⟨.deleteMatching a.pattern, false, some n⟩

namespace World

/-- the clearing of some areas, one after another -/
def clear (w : World) (areas : List Area) : World := (areas.map Area.clearing).foldl update w

/-- what the server clears when it starts -/
def cleanUp (w : World) : World := (Update.clearSessions ++ Update.clearRooms).foldl update w

theorem cleanUp_eq (w : World) : w.cleanUp = w.clear Area.all := rfl

variable {w : World}

theorem clear_one (hw : w.Reliable) (a : Area) : w.update a.clearing = { w with cache :=
    { w.cache with
      store := w.cache.store.keep fun key => !a.holds key
      entries := w.cache.entries ++ [a.cleared (w.cache.store.keys.countP a.holds)] } } := by
  rw [update, Journal.call, hw, Area.clearing, Area.perform_pattern]
  rfl

/-- The clearing of some areas removes the records that belong to one of them, and each clearing
says how many belonged to its area from the beginning. -/
theorem clear_all (hw : w.Reliable) {areas : List Area} (hnodup : areas.Nodup) :
    w.clear areas = { w with cache :=
      { w.cache with
        store := w.cache.store.keep fun key => !areas.any (·.holds key)
        entries := w.cache.entries ++
          areas.map fun a => a.cleared (w.cache.store.keys.countP a.holds) } } := by
  induction areas generalizing w with
  | nil =>
    have hkeep : (w.cache.store.keep fun _ => true) = w.cache.store :=
      Table.eq_of_entries (List.filter_eq_self.mpr fun _ _ => rfl)
    simp [clear, hkeep]
  | cons a areas ih =>
    obtain ⟨hnot, hrest⟩ := List.nodup_cons.mp hnodup
    have hcount : ∀ b ∈ areas, ∀ keys : List String,
        (keys.filter fun key => !a.holds key).countP b.holds = keys.countP b.holds :=
      fun b hb => Area.countP_apart fun heq => hnot (heq ▸ hb)
    show (w.update a.clearing).clear areas = _
    rw [ih (reliable_update hw _) hrest, clear_one hw]
    simp only [Table.keep_keep, Table.keys_keep, List.map_cons, List.any_cons, Bool.not_or]
    rw [List.map_congr_left fun b hb => congrArg b.cleared (hcount b hb _), List.append_assoc]
    rfl

theorem cleanUp_cache (hw : w.Reliable) : w.cleanUp = { w with cache :=
    { w.cache with
      store := w.cache.store.keep fun key => !leftover key
      entries := w.cache.entries ++
        Area.all.map fun a => a.cleared (w.cache.store.keys.countP a.holds) } } := by
  rw [cleanUp_eq, clear_all hw (by decide)]
  rfl

theorem reliable_cleanUp (hw : w.Reliable) : w.cleanUp.Reliable := by
  intro n
  rw [cleanUp_cache hw]
  exact hw n

/-- of the records of the server, only the number of users survives -/
theorem record_cleanUp (hw : w.Reliable) (key : Key) :
    w.cleanUp.record key.text = if key = .online then w.record key.text else none := by
  rw [record, cleanUp_cache hw, Table.get?_keep]
  by_cases hkey : key = .online
  · rw [if_pos hkey, hkey, leftover_online]
    rfl
  · rw [if_neg hkey, key.leftover_text.mpr hkey]
    rfl

/-- a cleanup leaves nothing for another one -/
theorem countP_holds_kept (keys : List String) (a : Area) :
    (keys.filter fun key => !leftover key).countP a.holds = 0 := by
  refine List.countP_eq_zero.mpr fun key hkey hholds => ?_
  have hnot : leftover key = false := by simpa using (List.mem_filter.mp hkey).2
  rw [leftover, List.any_eq_false] at hnot
  exact hnot a a.mem_areas hholds

theorem cleanUp_cleanUp (hw : w.Reliable) :
    w.cleanUp.cleanUp.cache.store = w.cleanUp.cache.store ∧
      w.cleanUp.cleanUp.cache.entries =
        w.cleanUp.cache.entries ++ Area.all.map (·.cleared 0) := by
  have hstore : w.cleanUp.cache.store = w.cache.store.keep fun key => !leftover key := by
    rw [cleanUp_cache hw]
  rw [cleanUp_cache (reliable_cleanUp hw)]
  constructor
  · show w.cleanUp.cache.store.keep (fun key => !leftover key) = w.cleanUp.cache.store
    rw [hstore, Table.keep_keep]
    simp only [Bool.and_self]
  · refine congrArg (w.cleanUp.cache.entries ++ ·) (List.map_congr_left fun a _ => ?_)
    rw [hstore, Table.keys_keep, countP_holds_kept]

end World

/-- The cleanup at the start removes exactly the records whose keys begin in one of three ways, and
leaves the others as they are.  Each of its clearings says how many records it removed, which is so
for any pattern.  Of what the server itself stores only the number of users survives, and a second
cleanup removes nothing. -/
theorem startup_cleanup_exact (w : World) (hw : w.Reliable) :
    let store := w.cache.store
    let w' := w.cleanUp
    -- what is left
    w'.cache.store.entries = store.entries.filter (fun e =>
      !("server:session:".toList.isPrefixOf e.1.toList ||
        "server:user_status:".toList.isPrefixOf e.1.toList ||
        "server:multiplayer:".toList.isPrefixOf e.1.toList)) ∧
    -- what was counted
    w'.cache.entries = w.cache.entries ++
      [⟨.deleteMatching "server:session:*", false,
          some (store.keys.countP fun k => "server:session:".toList.isPrefixOf k.toList)⟩,
        ⟨.deleteMatching "server:user_status:*", false,
          some (store.keys.countP fun k => "server:user_status:".toList.isPrefixOf k.toList)⟩,
        ⟨.deleteMatching "server:multiplayer:*", false,
          some (store.keys.countP fun k => "server:multiplayer:".toList.isPrefixOf k.toList)⟩] ∧
    (∀ (s s' : Store) (pattern : String) (removed : Option Nat),
      perform s (.deleteMatching pattern) = .ok (removed, s') →
        s'.entries.Sublist s.entries ∧ ∃ n, removed = some n ∧ s'.size + n = s.size) ∧
    -- the records of the server
    (∀ key : Key, w'.record key.text = if key = .online then w.record key.text else none) ∧
    -- once more
    w'.cleanUp.cache.store = w'.cache.store ∧
    w'.cleanUp.cache.entries = w'.cache.entries ++ Area.all.map (·.cleared 0) ∧
    w'.hub = w.hub ∧ w'.lines = w.lines ∧ w'.metrics = w.metrics := by
  intro store w'
  have hw' : w' = _ := World.cleanUp_cache hw
  obtain ⟨hagain, hnothing⟩ := World.cleanUp_cleanUp hw
  refine ⟨?_, ?_, fun s s' pattern removed h => removed_of_deleteMatching h,
    World.record_cleanUp hw, hagain, hnothing, ?_, ?_, ?_⟩
  · rw [hw']
    exact List.filter_congr fun e _ => congrArg not (leftover_eq e.1)
  · rw [hw']
    rfl
  · rw [hw']
  · rw [hw']
  · rw [hw']

/-! ## A store with records of others -/

/-- a store that several services share, after an earlier run of the server -/
def Cache.shared : Store := .ofList
  [(Key.online.text, .text "3"), ((Key.session "").text, .text "7"),
    ("server:sessions", .text "kept"), ((Key.session "a*[b").text, .text "8"),
    ((Key.status (-4)).text, .hash .empty), ("xserver:multiplayer:1", .text "kept"),
    ((Key.room (-1)).text, .hash .empty), ((Key.player 2 (-3)).text, .hash .empty),
    ("server:multiplayer", .hash (.ofList [("n", "kept")]))]

/-- a server that starts with such a store -/
def World.inherited : World :=
  { World.blank with cache := { World.blank.cache with store := shared } }

theorem startup_cleanup_exact_inherited :
    World.inherited.cleanUp.cache.store.keys =
      ["server:online_users", "server:sessions", "xserver:multiplayer:1", "server:multiplayer"] ∧
    World.inherited.cleanUp.cache.entries =
      [Area.sessions.cleared 2, Area.statuses.cleared 1, Area.rooms.cleared 2] ∧
    World.inherited.cleanUp.cleanUp.cache.store = World.inherited.cleanUp.cache.store := by
  have hreliable : World.inherited.Reliable := fun _ => rfl
  obtain ⟨hleft, hcounted, -, -, hagain, -⟩ := startup_cleanup_exact World.inherited hreliable
  refine ⟨?_, hcounted.trans ?_, hagain⟩
  · rw [Table.keys, hleft]
    decide +kernel
  · decide +kernel

end RhythmLobby
