import Mathlib.Data.List.Perm.Basic
import RhythmLobby.Proofs.Json.Objects
import RhythmLobby.Proofs.Packet.Accepted

/-!
# Members in any order, with others among them

A packet is read from its object by the names of the members.  Their order makes no difference,
and members with other names are passed over, whatever their values.

* `Json.Shape.known`          the members that a record asks for;
* `Json.Shape.ofObject_perm`  a record read from its members in another order, and more of them;
* `Json.Tagged.perm`          the kind of a record whose members come in another order;
* `Json.Variants.fields`      the names of the members that a kind asks for;
* `packets_read_by_name`      frames put together from their members' texts in another order.
-/

namespace RhythmLobby.Json

variable {α : Type}

/-! ## Members by name -/

theorem lookup_eq_some {ms : List (String × Value)} (hnodup : (ms.map (·.1)).Nodup) {name : String}
    {v : Value} : lookup ms name = some v ↔ (name, v) ∈ ms := by
  constructor
  · intro h
    obtain ⟨m, hm, rfl⟩ := Option.map_eq_some_iff.mp h
    have hname : m.1 = name := by simpa using List.find?_some hm
    exact hname ▸ List.mem_of_find?_eq_some hm
  · exact fun h => Shape.lookup_of_mem hnodup h

theorem lookup_perm {ms ms' : List (String × Value)} (hperm : ms.Perm ms')
    (hnodup : (ms.map (·.1)).Nodup) (name : String) : lookup ms name = lookup ms' name := by
  have hnodup' : (ms'.map (·.1)).Nodup := (hperm.map _).nodup_iff.mp hnodup
  refine Option.ext fun v => ?_
  rw [lookup_eq_some hnodup, lookup_eq_some hnodup']
  exact hperm.mem_iff

namespace Shape

/-- the members that a record asks for -/
def known (s : Shape α) (ms : List (String × Value)) : List (String × Value) :=
  ms.filter (·.1 ∈ s.names)

theorem mem_known {s : Shape α} {ms : List (String × Value)} {m : String × Value} :
    m ∈ s.known ms ↔ m ∈ ms ∧ m.1 ∈ s.names := by
  simp [known]

theorem scan_known (s : Shape α) (seen : List String) (ms : List (String × Value)) :
    s.scan seen (s.known ms) = s.scan seen ms := by
  induction ms generalizing seen with
  | nil => rfl
  | cons m ms ih =>
    obtain ⟨name, v⟩ := m
    by_cases hname : name ∈ s.names
    · have hknown : s.known ((name, v) :: ms) = (name, v) :: s.known ms :=
        List.filter_cons_of_pos (by simpa using hname)
      simp only [hknown, scan, hname, if_true, ih]
    · have hknown : s.known ((name, v) :: ms) = s.known ms :=
        List.filter_cons_of_neg (by simpa using hname)
      simp only [hknown, scan, hname, if_false, ih]

theorem lookup_known (s : Shape α) {ms : List (String × Value)} {name : String}
    (hname : name ∈ s.names) : lookup (s.known ms) name = lookup ms name := by
  induction ms with
  | nil => rfl
  | cons m ms ih =>
    obtain ⟨k, v⟩ := m
    by_cases hk : k ∈ s.names
    · have hknown : s.known ((k, v) :: ms) = (k, v) :: s.known ms :=
        List.filter_cons_of_pos (by simpa using hk)
      rw [hknown, lookup_cons, lookup_cons, ih]
    · have hknown : s.known ((k, v) :: ms) = s.known ms :=
        List.filter_cons_of_neg (by simpa using hk)
      have hne : k ≠ name := fun heq => hk (heq ▸ hname)
      rw [hknown, lookup_cons, if_neg hne, ih]

theorem build_congr (s : Shape α) {find find' : String → Option Value}
    (h : ∀ name ∈ s.names, find name = find' name) : s.build find = s.build find' := by
  induction s with
  | pure x => rfl
  | member s field ih =>
    have hrest := ih fun name hname => h name (List.mem_append_left _ hname)
    have hlast := h field.name (List.mem_append_right _ (List.mem_singleton_self _))
    rw [build, build, hrest, hlast]

theorem ofObject_known (s : Shape α) (ms : List (String × Value)) :
    s.ofObject (s.known ms) = s.ofObject ms := by
  rw [ofObject, ofObject, scan_known, s.build_congr fun name => s.lookup_known]

/-- what a scan has accepted: different names, and values that are allowed -/
theorem scan_ok {s : Shape α} {seen : List String} {ms : List (String × Value)}
    (hnames : ∀ m ∈ ms, m.1 ∈ s.names) (h : s.scan seen ms = .ok ()) :
    (ms.map (·.1)).Nodup ∧ ∀ m ∈ ms, m.1 ∉ seen ∧ s.allows m.1 m.2 = .ok () := by
  induction ms generalizing seen with
  | nil => exact ⟨.nil, nofun⟩
  | cons m ms ih =>
    obtain ⟨name, v⟩ := m
    obtain ⟨hname, hnames⟩ := List.forall_mem_cons.mp hnames
    rw [scan, if_pos hname] at h
    split at h
    · cases h
    rename_i hfresh
    obtain ⟨_, hv, hrest⟩ := bind_eq_ok.mp h
    obtain ⟨hnodup, hall⟩ := ih hnames hrest
    have hother : name ∉ ms.map (·.1) := by
      intro hmem
      obtain ⟨m, hm, heq⟩ := List.mem_map.mp hmem
      exact (hall m hm).1 (heq ▸ List.mem_cons_self ..)
    have hrest : ∀ m ∈ ms, m.1 ∉ seen ∧ s.allows m.1 m.2 = .ok () := by
      intro m hm
      obtain ⟨hnew, hallowed⟩ := hall m hm
      exact ⟨fun hseen => hnew (List.mem_cons_of_mem _ hseen), hallowed⟩
    constructor
    · exact List.nodup_cons.mpr ⟨hother, hnodup⟩
    · exact List.forall_mem_cons.mpr ⟨⟨hfresh, hv⟩, hrest⟩

/-- A record is read from its members in any order, with members among them that it does not
ask for. -/
theorem ofObject_perm {s : Shape α} {ms ms' added : List (String × Value)} {x : α}
    (h : s.ofObject ms = .ok x) (hperm : ms'.Perm (ms ++ added))
    (hadded : ∀ m ∈ added, m.1 ∉ s.names) : s.ofObject ms' = .ok x := by
  -- nothing but the known members counts, and these are the same up to their order
  have hknown : (s.known ms).Perm (s.known ms') := by
    have hnone : s.known added = [] :=
      List.filter_eq_nil_iff.mpr fun m hm => by simpa using hadded m hm
    have hfilter : (s.known ms').Perm (s.known ms ++ s.known added) := by
      rw [known, known, known, ← List.filter_append]
      exact hperm.filter _
    rw [hnone, List.append_nil] at hfilter
    exact hfilter.symm
  rw [← ofObject_known] at h ⊢
  obtain ⟨⟨⟩, hscan, hbuild⟩ := bind_eq_ok.mp h
  obtain ⟨hnodup, hall⟩ := scan_ok (fun m hm => (mem_known.mp hm).2) hscan
  have hnodup' : ((s.known ms').map (·.1)).Nodup := (hknown.map _).nodup_iff.mp hnodup
  refine bind_eq_ok.mpr ⟨(), scan_eq_ok s (fun _ _ => List.not_mem_nil) hnodup' fun m hm =>
    (hall m (hknown.mem_iff.mpr hm)).2, ?_⟩
  rw [← s.build_congr fun name _ => lookup_perm hknown hnodup name]
  exact hbuild

end Shape

/-! ## Kinds -/

/-- the names of the members that a kind of record asks for -/
def Variant.names : Variant α → List String
  | .bare _ => []
  | .record _ s => s.names
  | .patch _ s => s.names

theorem Variant.decoder_perm {v : Variant α} {ms ms' added : List (String × Value)} {x : α}
    (h : v.decoder (.object ms) = .ok x) (hperm : ms'.Perm (ms ++ added))
    (hadded : ∀ m ∈ added, m.1 ∉ v.names) : v.decoder (.object ms') = .ok x := by
  cases v with
  | bare y => exact h
  | record title s => exact Shape.ofObject_perm (s := s) h hperm hadded
  | patch title s => exact Shape.ofObject_perm (s := s) h hperm hadded

/-- the names of the members that a kind asks for, besides the tag -/
def Variants.fields (vs : Variants α) (kind : String) : List String :=
  match vs.cases.find? (·.1 == kind) with
  | some (_, v) => v.names
  | none => []

theorem Variants.decode_perm {vs : Variants α} {kind : String}
    {ms ms' added : List (String × Value)} {x : α} (h : vs.decode kind (.object ms) = .ok x)
    (hperm : ms'.Perm (ms ++ added)) (hadded : ∀ m ∈ added, m.1 ∉ vs.fields kind) :
    vs.decode kind (.object ms') = .ok x := by
  unfold Variants.fields at hadded
  unfold Variants.decode at h ⊢
  split at h
  · rename_i name v hfind
    simp only [hfind] at hadded ⊢
    exact v.decoder_perm h hperm hadded
  · cases h

theorem Tagged.perm {tag kind : String} {ms ms' added : List (String × Value)} {body : Value}
    (h : Tagged tag (.object ms) kind body) (hperm : ms'.Perm (ms ++ added))
    (hadded : ∀ m ∈ added, m.1 ≠ tag) :
    ∃ rest rest', body = .object rest ∧ Tagged tag (.object ms') kind (.object rest') ∧
      rest'.Perm (rest ++ added) := by
  obtain ⟨before, after, rfl, hbefore, hafter, rfl⟩ := tagged_object.mp h
  have hmem : (tag, .string kind) ∈ ms' := hperm.mem_iff.mpr (by simp)
  obtain ⟨before', after', rfl⟩ := List.append_of_mem hmem
  have hrest : (before' ++ after').Perm (before ++ after ++ added) := by
    have hcons := List.perm_middle.symm.trans hperm
    rw [List.append_assoc, List.cons_append] at hcons
    rw [List.append_assoc]
    exact (hcons.trans List.perm_middle).cons_inv
  have hother : ∀ m ∈ before' ++ after', m.1 ≠ tag := by
    intro m hm
    rcases List.mem_append.mp (hrest.mem_iff.mp hm) with hm | hm
    · rcases List.mem_append.mp hm with hm | hm
      · exact hbefore m hm
      · exact hafter m hm
    · exact hadded m hm
  exact ⟨before ++ after, before' ++ after', rfl,
    .object kind (fun m hm => hother m (List.mem_append_left _ hm))
      (fun m hm => hother m (List.mem_append_right _ hm)), hrest⟩

end RhythmLobby.Json

namespace RhythmLobby
open Json

/-- Frames are read by the names of their members.  Take a frame that holds an object and is
accepted as a packet.  It is put together from a text for each member, the tag among them.
Such texts may be put together in any order, with any texts of other members among them and with
space around the object: where the result is not too long it is accepted as the same packet. -/
theorem packets_read_by_name {frame : String} {p : ClientPacket} {members : List (String × Value)}
    (hdecode : ClientPacket.decode frame = .ok p)
    (hparse : Json.parse frame = .ok (.object members)) :
    Variants.tag ∈ members.map (·.1) ∧
    (∃ before texts after, frame = before ++ objectText texts ++ after ∧ Blank before.toList ∧
      Blank after.toList ∧ List.Forall₂ MemberText texts members) ∧
    ∀ (texts added moved : List String) (others : List (String × Value)) (before after : String),
      List.Forall₂ MemberText texts members → List.Forall₂ MemberText added others →
      (∀ m ∈ others, m.1 ≠ Variants.tag ∧ m.1 ∉ ClientPacket.variants.fields p.kind) →
      moved.Perm (texts ++ added) → Blank before.toList → Blank after.toList →
      (before ++ objectText moved ++ after).utf8ByteSize ≤ ClientPacket.maxFrameBytes →
      ClientPacket.decode (before ++ objectText moved ++ after) = .ok p := by
  obtain ⟨-, v, body, hvalue, htagged, hbody⟩ := ClientPacket.decode_eq_ok.mp hdecode
  obtain rfl : .object members = v := Except.ok.inj (hparse.symm.trans hvalue)
  have htag : Variants.tag ∈ members.map (·.1) := by
    obtain ⟨front, back, rfl, -⟩ := tagged_object.mp htagged
    simp
  have hne : members ≠ [] := fun hnil => by simp [hnil] at htag
  refine ⟨htag, exists_memberTexts hparse hne, ?_⟩
  intro texts added moved others before after htexts hadded hothers hmoved hbefore hafter hsize
  obtain ⟨members', hmembers', hperm⟩ :=
    List.perm_comp_forall₂ hmoved (List.rel_append htexts hadded)
  obtain ⟨rest, rest', rfl, htagged', hrest⟩ :=
    htagged.perm hperm fun m hm => (hothers m hm).1
  exact ClientPacket.decode_eq_ok.mpr ⟨hsize, _, _, parse_objectText hmembers' hbefore hafter,
    htagged', Variants.decode_perm hbody hrest fun m hm => (hothers m hm).2⟩

/-- settings with the tag at the end, a member that is not known and space between them -/
theorem packets_read_by_name_settings :
    ClientPacket.decode (objectText ["\"t\":\"room_settings\"", "\"name\":\"Duel\""]) =
        .ok (.roomSettings { SettingsPatch.empty with name := some "Duel" }) ∧
      ClientPacket.decode (objectText ["\"x\":[" ++ objectText ["\"t\":0"] ++ "] ",
          " \"name\": \"Duel\"", "\"t\":\"room_settings\""] ++ "\n") =
        .ok (.roomSettings { SettingsPatch.empty with name := some "Duel" }) := by
  have hdecode : ClientPacket.decode
      (objectText ["\"t\":\"room_settings\"", "\"name\":\"Duel\""]) =
        .ok (.roomSettings { SettingsPatch.empty with name := some "Duel" }) := rfl
  let other : String := "\"x\":[" ++ objectText ["\"t\":0"] ++ "] "
  have htag : MemberText "\"t\":\"room_settings\"" ("t", .string "room_settings") :=
    ⟨"\"t\"", "\"room_settings\"", rfl, rfl, rfl, by decide⟩
  have hname : MemberText " \"name\": \"Duel\"" ("name", .string "Duel") :=
    ⟨" \"name\"", " \"Duel\"", rfl, rfl, rfl, by decide⟩
  have hother : MemberText other ("x", .array [.object [("t", .integer 0)]]) :=
    ⟨"\"x\"", "[" ++ objectText ["\"t\":0"] ++ "] ", rfl, rfl, rfl, by decide⟩
  have hmoved : [other, " \"name\": \"Duel\"", "\"t\":\"room_settings\""].Perm
      (["\"t\":\"room_settings\"", " \"name\": \"Duel\""] ++ [other]) := by
    decide
  exact ⟨hdecode, (packets_read_by_name hdecode rfl).2.2 _ _ _ _ "" "\n"
    (.cons htag (.cons hname .nil)) (.cons hother .nil) (by decide) hmoved (by decide) (by decide)
    (by decide)⟩

end RhythmLobby
