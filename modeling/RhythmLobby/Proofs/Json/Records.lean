import RhythmLobby.Packet.User
import RhythmLobby.Json.Tagged

/-!
# Records and their members

What is true of every record a shape can make, and which members make a given record.

* `Json.Shape.Yields`    a property of all records of a shape;
* `Json.Shape.Writes`    members in the order of the shape that make a record;
* `Json.Shape.Writes.ofObject`   such members are read as that record.
-/

namespace RhythmLobby.Json

variable {α β : Type}

theorem bind_eq_ok {ε : Type} {x : Except ε α} {f : α → Except ε β} {y : β} :
    (x >>= f) = .ok y ↔ ∃ a, x = .ok a ∧ f a = .ok y := by
  cases x with
  | error e => exact ⟨nofun, nofun⟩
  | ok a =>
    constructor
    · exact fun h => ⟨a, rfl, h⟩
    · intro hexists
      obtain ⟨b, ⟨⟩, h⟩ := hexists
      exact h

namespace Shape

/-! ## What a shape can make -/

/-- every record made of these members has the property, whatever the members' values -/
def Yields : {α : Type} → Shape α → (α → Prop) → Prop
  | _, .pure x, P => P x
  | _, .member s _, P => s.Yields fun make => ∀ x, P (make x)

theorem Yields.build {s : Shape α} {P : α → Prop} (h : s.Yields P)
    {find : String → Option Value} {x : α} (hx : s.build find = .ok x) : P x := by
  induction s with
  | pure y =>
    cases hx
    exact h
  | member s field ih =>
    obtain ⟨make, hmake, hx⟩ := bind_eq_ok.mp hx
    have hall := ih h hmake
    split at hx
    · obtain ⟨y, -, hx⟩ := bind_eq_ok.mp hx
      cases hx
      exact hall y
    · cases hx
      exact hall _
    · cases hx

theorem Yields.ofObject {s : Shape α} {P : α → Prop} (h : s.Yields P)
    {members : List (String × Value)} {x : α} (hx : s.ofObject members = .ok x) : P x := by
  obtain ⟨_, -, hx⟩ := bind_eq_ok.mp hx
  exact h.build hx

theorem Yields.ofList {s : Shape α} {P : α → Prop} (h : s.Yields P) {title : String}
    {items : List Value} {x : α} (hx : s.ofList title items = .ok x) : P x := by
  obtain ⟨_, -, hx⟩ := bind_eq_ok.mp hx
  dsimp only at hx
  split at hx
  · cases hx
  split at hx
  · cases hx
  · exact h.build hx

theorem Yields.decoder {s : Shape α} {P : α → Prop} (h : s.Yields P) {title : String}
    {v : Value} {x : α} (hx : s.decoder title v = .ok x) : P x := by
  unfold Shape.decoder at hx
  split at hx
  · exact h.ofObject hx
  · exact h.ofList hx
  · cases hx

/-! ## What makes a record -/

/-- members in the order of the shape, and the record they make -/
inductive Writes : {α : Type} → Shape α → List (String × Value) → α → Prop
  | pure {α : Type} (x : α) : Writes (.pure x) [] x
  | member {α β : Type} {s : Shape (β → α)} {members : List (String × Value)} {make : β → α}
      {field : Field β} {v : Value} {x : β} (h : Writes s members make)
      (hv : field.decode v = .ok x) :
      Writes (s.member field) (members ++ [(field.name, v)]) (make x)

theorem Writes.required {s : Shape (β → α)} {members : List (String × Value)} {make : β → α}
    (h : Writes s members make) (name : String) {d : Decoder β} {v : Value} {x : β}
    (hv : d v = .ok x) :
    Writes (s.required name d) (members ++ [(name, v)]) (make x) :=
  .member h hv

theorem Writes.optional {s : Shape (β → α)} {members : List (String × Value)} {make : β → α}
    (h : Writes s members make) (name : String) {d : Decoder β} (fallback : β) {v : Value} {x : β}
    (hv : d v = .ok x) :
    Writes (s.optional name d fallback) (members ++ [(name, v)]) (make x) :=
  .member h hv

theorem Writes.map {s : Shape α} {members : List (String × Value)} {x : α}
    (h : Writes s members x) (f : α → β) : Writes (s.map f) members (f x) := by
  induction h generalizing β with
  | pure x => exact .pure (f x)
  | member h hv ih => exact .member (ih (f ∘ ·)) hv

theorem Writes.names_eq {s : Shape α} {members : List (String × Value)} {x : α}
    (h : Writes s members x) : members.map (·.1) = s.names := by
  induction h with
  | pure x => rfl
  | member h hv ih => rw [List.map_append, ih]; rfl

theorem Writes.build {s : Shape α} {members : List (String × Value)} {x : α}
    (h : Writes s members x) {find : String → Option Value}
    (hfind : ∀ m ∈ members, find m.1 = some m.2) : s.build find = .ok x := by
  induction h with
  | pure x => rfl
  | @member _ _ s members make field v x h hv ih =>
    have hmake := ih fun m hm => hfind m (List.mem_append_left _ hm)
    have hlast := hfind (field.name, v) (List.mem_append_right _ (List.mem_singleton_self _))
    refine bind_eq_ok.mpr ⟨make, hmake, ?_⟩
    rw [hlast]
    exact bind_eq_ok.mpr ⟨x, hv, rfl⟩

theorem Writes.allows {s : Shape α} {members : List (String × Value)} {x : α}
    (h : Writes s members x) (hnames : s.names.Nodup) :
    ∀ m ∈ members, s.allows m.1 m.2 = .ok () := by
  induction h with
  | pure x => nofun
  | @member _ _ s members make field v x h hv ih =>
    obtain ⟨hrest, -, hne⟩ := List.nodup_append.mp hnames
    intro m hm
    rcases List.mem_append.mp hm with hm | hm
    · have hname : field.name ≠ m.1 := fun heq =>
        hne m.1 (h.names_eq ▸ List.mem_map_of_mem hm) field.name (List.mem_singleton_self _)
          heq.symm
      rw [Shape.allows, if_neg hname]
      exact ih hrest m hm
    · cases List.mem_singleton.mp hm
      rw [Shape.allows, if_pos rfl, hv]
      rfl

theorem scan_eq_ok (s : Shape α) {members : List (String × Value)} {seen : List String}
    (hnew : ∀ m ∈ members, m.1 ∉ seen) (hnodup : (members.map (·.1)).Nodup)
    (hallowed : ∀ m ∈ members, s.allows m.1 m.2 = .ok ()) : s.scan seen members = .ok () := by
  induction members generalizing seen with
  | nil => rfl
  | cons m rest ih =>
    obtain ⟨name, v⟩ := m
    obtain ⟨hfresh, hrest⟩ := List.nodup_cons.mp hnodup
    obtain ⟨hname, hnew⟩ := List.forall_mem_cons.mp hnew
    obtain ⟨hv, hallowed⟩ := List.forall_mem_cons.mp hallowed
    rw [scan]
    split
    · refine bind_eq_ok.mpr ⟨(), hv, ih (fun m hm => ?_) hrest hallowed⟩
      intro hseen
      rcases List.mem_cons.mp hseen with heq | hseen
      · exact hfresh (List.mem_map.mpr ⟨m, hm, heq⟩)
      · exact hnew m hm hseen
    · exact ih hnew hrest hallowed

theorem lookup_of_mem {members : List (String × Value)} (hnodup : (members.map (·.1)).Nodup)
    {m : String × Value} (hm : m ∈ members) : lookup members m.1 = some m.2 := by
  induction members with
  | nil => cases hm
  | cons m' rest ih =>
    obtain ⟨name, v⟩ := m'
    obtain ⟨hfresh, hrest⟩ := List.nodup_cons.mp hnodup
    rw [lookup_cons]
    rcases List.mem_cons.mp hm with rfl | hm
    · rw [if_pos rfl]
    · have hname : name ≠ m.1 := fun heq => hfresh (List.mem_map.mpr ⟨m, hm, heq.symm⟩)
      rw [if_neg hname]
      exact ih hrest hm

theorem Writes.ofObject {s : Shape α} {members : List (String × Value)} {x : α}
    (h : Writes s members x) (hnames : s.names.Nodup) : s.ofObject members = .ok x := by
  have hnodup : (members.map (·.1)).Nodup := h.names_eq ▸ hnames
  refine bind_eq_ok.mpr ⟨(), ?_, ?_⟩
  · exact scan_eq_ok s (fun _ _ => List.not_mem_nil) hnodup (h.allows hnames)
  · exact h.build fun m hm => lookup_of_mem hnodup hm

end Shape

namespace Variant

/-- every record of the variant has the property -/
def Yields : Variant α → (α → Prop) → Prop
  | .bare x, P => P x
  | .record _ s, P => s.Yields P
  | .patch _ s, P => s.Yields P

theorem Yields.decoder {v : Variant α} {P : α → Prop} (h : v.Yields P) {body : Value} {x : α}
    (hx : v.decoder body = .ok x) : P x := by
  cases v with
  | bare y =>
    simp only [Variant.decoder] at hx
    split at hx
    · cases hx
    · cases hx
      exact h
  | record title s => exact Shape.Yields.decoder h hx
  | patch title s =>
    simp only [Variant.decoder] at hx
    split at hx
    · exact Shape.Yields.ofObject h hx
    · cases hx

end Variant

/-- what is read as a kind of record has a property of all records of the kind -/
theorem Variants.decode_yields {vs : Variants α} {P : String → α → Prop}
    (h : ∀ c ∈ vs.cases, c.2.Yields (P c.1)) {kind : String} {body : Value} {x : α}
    (hx : vs.decode kind body = .ok x) : P kind x := by
  unfold Variants.decode at hx
  split at hx
  · rename_i found v hfound
    have hname : found = kind := by simpa using List.find?_some hfound
    exact hname ▸ (h _ (List.mem_of_find?_eq_some hfound)).decoder hx
  · cases hx

end RhythmLobby.Json
