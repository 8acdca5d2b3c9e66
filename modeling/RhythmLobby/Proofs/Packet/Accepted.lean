import RhythmLobby.Proofs.Json.Tagged
import RhythmLobby.Proofs.Json.Records
import RhythmLobby.Packet.Client

/-!
# Which frames are packets

A frame is meant to hold one object whose member `t` names the kind of the packet.  A frame that
is accepted does hold such an object, or else a list whose first element names the kind.

* `ClientPacket.decode_eq_ok`   the frames that are accepted;
* `ClientPacket.Proper`         the frames that are meant to be;
* `accepted_frames_proper_iff_not_list`   how the two differ.
-/

namespace RhythmLobby
open Json

namespace ClientPacket

/-- every record that is read as a kind of packet is a packet of that kind -/
theorem variants_yield_kind : ∀ c ∈ variants.cases, c.2.Yields fun p => p.kind = c.1 := by
  simp [variants, Variant.Yields, Shape.Yields, Shape.required, Shape.optional,
    SettingsPatch.shape, Shape.map, kind]

theorem kind_mem (p : ClientPacket) : p.kind ∈ variants.cases.map (·.1) := by
  cases p <;> simp [kind, variants]

/-- The accepted frames: of allowed length, with a JSON value that names a kind, and whose rest
makes a packet of this kind. -/
theorem decode_eq_ok {frame : String} {p : ClientPacket} :
    decode frame = .ok p ↔
      frame.utf8ByteSize ≤ maxFrameBytes ∧
        ∃ v body, Json.parse frame = .ok v ∧ Tagged Variants.tag v p.kind body ∧
          variants.decode p.kind body = .ok p := by
  unfold decode
  split
  · rename_i hlong
    exact ⟨nofun, fun h => absurd h.1 (Nat.not_le_of_lt hlong)⟩
  · rename_i hshort
    have haccepted : (readTagged variants frame).mapError DecodeError.malformed = .ok p ↔
        readTagged variants frame = .ok p := by
      cases readTagged variants frame with
      | error e => exact ⟨nofun, nofun⟩
      | ok q => exact ⟨fun h => (Except.ok.inj h) ▸ rfl, fun h => (Except.ok.inj h) ▸ rfl⟩
    rw [haccepted, readTagged_eq_ok]
    constructor
    · intro hexists
      obtain ⟨v, kind, body, hparse, htagged, -, hdecode⟩ := hexists
      obtain rfl : p.kind = kind := Variants.decode_yields (P := fun k q => q.kind = k)
        variants_yield_kind hdecode
      exact ⟨Nat.le_of_not_lt hshort, v, body, hparse, htagged, hdecode⟩
    · intro hboth
      obtain ⟨-, v, body, hparse, htagged, hdecode⟩ := hboth
      exact ⟨v, p.kind, body, hparse, htagged, p.kind_mem, hdecode⟩

/-- a frame as a packet is meant to come: not too long, and an object with one member that names
a kind, which is the kind of the packet -/
def Proper (p : ClientPacket) (frame : String) : Prop :=
  frame.utf8ByteSize ≤ maxFrameBytes ∧
    ∃ members, Json.parse frame = .ok (.object members) ∧
      members.filter (·.1 == Variants.tag) = [(Variants.tag, .string p.kind)]

theorem settings_not_list (items : List Value) (p : ClientPacket) :
    variants.decode "room_settings" (.array items) ≠ .ok p := nofun

end ClientPacket

/-- What is accepted as a packet is not too long.  It comes as it is meant to unless it is a list:
then the first element names the kind, and only settings are never accepted in this form. -/
theorem accepted_frames_proper_iff_not_list {frame : String} {p : ClientPacket}
    (h : ClientPacket.decode frame = .ok p) :
    frame.utf8ByteSize ≤ ClientPacket.maxFrameBytes ∧
      (p.Proper frame ↔ ∀ items, Json.parse frame ≠ .ok (.array items)) ∧
      ∀ items, Json.parse frame = .ok (.array items) →
        (∃ rest, items = .string p.kind :: rest) ∧ ∀ patch, p ≠ .roomSettings patch := by
  obtain ⟨hsize, v, body, hparse, htagged, hdecode⟩ := ClientPacket.decode_eq_ok.mp h
  generalize hkind : p.kind = kind at htagged hdecode
  refine ⟨hsize, ?_⟩
  cases htagged with
  | object kind hbefore hafter =>
    have hproper : p.Proper frame :=
      ⟨hsize, _, hparse, by rw [hkind]; exact filter_tag hbefore hafter⟩
    have hlist (items : List Value) : Json.parse frame ≠ .ok (.array items) := by
      rw [hparse]
      nofun
    exact ⟨⟨fun _ => hlist, fun _ => hproper⟩, fun items h => absurd h (hlist items)⟩
  | array kind items =>
    refine ⟨⟨fun hproper => ?_, fun h => absurd hparse (h _)⟩, fun items' hparse' => ?_⟩
    · obtain ⟨-, members, hobject, -⟩ := hproper
      rw [hparse] at hobject
      cases hobject
    · rw [hparse] at hparse'
      cases hparse'
      refine ⟨⟨items, rfl⟩, ?_⟩
      intro patch heq
      subst heq
      cases hkind
      exact ClientPacket.settings_not_list items _ hdecode

/-- an object is accepted and comes as it is meant to -/
theorem accepted_frames_proper_iff_not_list_ping :
    ClientPacket.decode ClientPacket.ping.text = .ok .ping ∧
      ClientPacket.Proper .ping ClientPacket.ping.text := by
  have hdecode : ClientPacket.decode ClientPacket.ping.text = .ok .ping := rfl
  have hparse : Json.parse ClientPacket.ping.text = .ok (.object [("t", .string "ping")]) := rfl
  refine ⟨hdecode, (accepted_frames_proper_iff_not_list hdecode).2.1.mpr fun items => ?_⟩
  rw [hparse]
  nofun

/-- a list is accepted as well, so that not all packets come as they are meant to -/
theorem list_accepted_as_packet :
    ¬∀ frame p, ClientPacket.decode frame = .ok p → p.Proper frame := by
  intro h
  obtain ⟨-, members, hparse, -⟩ := h "[\"ping\"]" .ping rfl
  have hlist : Json.parse "[\"ping\"]" = .ok (.array [.string "ping"]) := rfl
  rw [hlist] at hparse
  cases hparse

end RhythmLobby
