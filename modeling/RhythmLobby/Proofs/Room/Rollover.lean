import RhythmLobby.Proofs.Run

/-!
# Ids of rooms come round again

Ids of rooms are numbers of 32 bits.  A request for a room uses one up even if it is refused because
the user is in a room already.  After `2 ^ 32` requests the next room gets an id that may still be
in use, and takes the place of the other room; the members of that one keep their notes and their
records.

* `Rooms.create_noted`      an id that is used up by a refusal;
* `World.Alike`             worlds with the same memory and the same store, where tasks do the same;
* `Course.waste`            any number of ids that are used up;
* `Act.course_rollover`     two rooms with the same id, one after the other.
-/

namespace RhythmLobby
open Cache Routine World

/-! ## Ids that are used up -/

theorem Rooms.create_noted {request : RoomRequest} {host : PlayerProfile} {room : Int32} {w : World}
    (hvalid : checkSettings request.name request.maxPlayers 1 = .ok ())
    (hnoted : w.hub.memberships.get? host.userId = some room) :
    (create request host).Ends w (.error .alreadyMember) { w with hub := (takeId w.hub).2 } := by
  have hrefused : reserve host.userId w.hub.nextRoom (takeId w.hub).2 =
      (false, (takeId w.hub).2) := by
    have hcontains : (takeId w.hub).2.memberships.contains host.userId = true := by
      rw [Table.contains, show (takeId w.hub).2.memberships = w.hub.memberships from rfl, hnoted]
      rfl
    exact if_pos hcontains
  rw [create, hvalid]
  refine ends_bind.mpr ⟨w.hub.nextRoom, _, ends_transact.mpr ⟨rfl, rfl⟩, ?_⟩
  refine ends_bind.mpr ⟨false, _, ends_transact.mpr ⟨?_, rfl⟩, ?_⟩
  · rw [hrefused]
  · rw [hrefused]
    exact ends_done.mpr ⟨rfl, rfl⟩

theorem Session.dispatch_noted {s : Session} {name : String} (password : Option String)
    {maxPlayers : UInt8} (map : MapInfo) {room : Int32} {w : World}
    (hvalid : checkSettings name maxPlayers 1 = .ok ())
    (hunmuted : s.profile.isMutedAt w.hub.clock = false)
    (hnoted : w.hub.memberships.get? s.id = some room) :
    ∃ w', (s.dispatch (.roomCreate name password maxPlayers map)).Ends w
      (.error (.room .alreadyMember)) w' ∧ w'.hub = (Rooms.takeId w.hub).2 ∧
      w'.cache = w.cache := by
  let w₁ : World := { w with hub := (Rooms.takeId w.hub).2 }
  let request : RoomRequest := ⟨name, Room.password? password, maxPlayers, map⟩
  have hcreate : (s.createRoom request).Ends w (.error (.room .alreadyMember)) w₁ := by
    refine ends_bind.mpr ⟨false, w, ends_read.mpr ⟨hunmuted.symm, rfl⟩, ?_⟩
    refine ends_bind.mpr ⟨.error .alreadyMember, w₁, ?_, ends_done.mpr ⟨rfl, rfl⟩⟩
    exact Rooms.create_noted hvalid hnoted
  let p : ClientPacket := .roomCreate name password maxPlayers map
  let w₂ : World := w₁.note (.packetRefused p.kind (Refusal.room .alreadyMember).code)
  refine ⟨w₂.note (.packetHandled p.kind), ends_bind.mpr ⟨_, w₁, hcreate, ?_⟩, rfl, rfl⟩
  refine ends_bind.mpr ⟨(), w₂, ends_emit.mpr ⟨rfl, rfl⟩, ?_⟩
  exact ends_bind.mpr ⟨(), _, ends_emit.mpr ⟨rfl, rfl⟩, ends_done.mpr ⟨rfl, rfl⟩⟩

/-! ## Courses -/

/-- the same memory and the same store -/
structure World.Alike (w v : World) : Prop where
  memory : v.hub = w.hub
  store : v.cache = w.cache

theorem World.Alike.does {α : Type} {r : Routine α} {w v v' : World} {x : α} {es : List Effect}
    (hv : w.Alike v) (hr : r.Oblivious) (h : r.Does v x v' es) :
    ∃ w', r.Does w x w' es ∧ w'.Alike v' := by
  have halone : r.DoesAmid .none v x v' es := h.amid
  obtain ⟨w', hdoes, hmemory⟩ := hr.does halone hv.memory.symm
  refine ⟨w', hdoes, hmemory.symm, ?_⟩
  rw [h.cache, hdoes.cache, hv.store]

namespace Course

variable {May : List Session → World → Act → Prop} {out : Outside} {start w v : World}
  {past : List Act} {outcomes : List Outcome} {act : Act} {o : Outcome}

/-- an act that runs in a world like the present one runs in this one, too -/
theorem after_alike (h : Course May out start past outcomes w) (hv : w.Alike v) (fuel : Nat)
    (hmay : May (known outcomes) w act) (hrun : (act.task.run fuel v).map Prod.fst = some o) :
    ∃ w', Course May out start (past ++ [act]) (outcomes ++ [o]) w' ∧
      w'.Alike (act.task.after fuel v) := by
  obtain ⟨es, hgo⟩ := (ends_after hrun).does
  obtain ⟨w', hdoes, halike⟩ := hv.does act.oblivious_task hgo
  exact ⟨w', h.snoc hmay hdoes.amid, halike⟩

/-- a user in a room asks for another one, again and again -/
theorem waste {s : Session} {name : String} (password : Option String) {maxPlayers : UInt8}
    (map : MapInfo) {room : Int32} (h : Course Act.Proper out start past outcomes w)
    (hs : s ∈ known outcomes) (hvalid : checkSettings name maxPlayers 1 = .ok ())
    (hunmuted : s.profile.isMutedAt w.hub.clock = false)
    (hnoted : w.hub.memberships.get? s.id = some room) (n : Nat) :
    ∃ w', Course Act.Proper out start
        (past ++ .replicate n (.packet s (.roomCreate name password maxPlayers map)))
        (outcomes ++ .replicate n (.packet (.error (.room .alreadyMember)))) w' ∧
      s ∈ known (outcomes ++ .replicate n (.packet (.error (.room .alreadyMember)))) ∧
      w'.Alike { w with hub := { w.hub with nextRoom := w.hub.nextRoom + Int32.ofNat n } } := by
  induction n with
  | zero =>
    have hnext : w.hub.nextRoom + Int32.ofNat 0 = w.hub.nextRoom := Int32.add_zero _
    rw [hnext, List.replicate_zero, List.replicate_zero, List.append_nil, List.append_nil]
    exact ⟨w, h, hs, rfl, rfl⟩
  | succ n ih =>
    obtain ⟨v, hcourse, hknown, hmemory, hstore⟩ := ih
    have hclock : w.hub.clock = v.hub.clock := by rw [← hmemory]
    have hnotes : w.hub.memberships = v.hub.memberships := by rw [← hmemory]
    rw [hclock] at hunmuted
    rw [hnotes] at hnoted
    obtain ⟨w', hends, hhub, hcache⟩ :=
      Session.dispatch_noted password map hvalid hunmuted hnoted
    have htask : (Act.packet s (.roomCreate name password maxPlayers map)).task.Ends v
        (.packet (.error (.room .alreadyMember))) w' :=
      ends_bind.mpr ⟨_, w', hends, ends_done.mpr ⟨rfl, rfl⟩⟩
    obtain ⟨es, hgo⟩ := htask.amid
    rw [List.replicate_succ', List.replicate_succ', ← List.append_assoc, ← List.append_assoc]
    refine ⟨w', hcourse.snoc hknown hgo, ?_, ?_, ?_⟩
    · rw [known_snoc]
      exact List.mem_append_left _ hknown
    · have hnext : Int32.ofNat (n + 1) = Int32.ofNat n + 1 := Int32.ofNat_add n 1
      rw [hhub, ← hmemory, hnext, ← Int32.add_assoc]
      rfl
    · rw [hcache]
      exact hstore

end Course

/-! ## Two rooms with the same id -/

namespace Act

/-- The host opens a room, although its session has been torn down. -/
def opening : List Act :=
  [login carol "T1" 0, login dave "T2" 1, disconnect "T1", packet host arena]

def opened : List Outcome :=
  [.login (.ok host), .login (.ok guest), .nothing, .packet (.ok ())]

/-- the host asks for other rooms until its own id is the next one, and the guest opens a room -/
def rollover : List Act :=
  opening ++ .replicate (UInt32.size - 1) (packet host arena) ++ [packet guest arena]

def rolledOver : List Outcome :=
  opened ++ .replicate (UInt32.size - 1) (.packet (.error (.room .alreadyMember))) ++
    [.packet (.ok ())]

/-- the server before the guest opens a room -/
def exhausted : World :=
  let w := following threeLines opening
  { w with hub := { w.hub with nextRoom := 1 } }

def overtaken : World := (packet guest arena).task.after 100 exhausted

theorem course_opening (out : Outside) :
    Course Proper out threeLines opening opened (following threeLines opening) := by
  have hnone : Course Proper out threeLines [] [] threeLines := .nil
  have hone : Course Proper out threeLines (opening.take 1) (opened.take 1)
      (following threeLines (opening.take 1)) := hnone.after 100 ⟨nofun, _, rfl, rfl⟩ rfl
  have htwo : Course Proper out threeLines (opening.take 2) (opened.take 2)
      (following threeLines (opening.take 2)) := hone.after 100 ⟨by decide, _, rfl, rfl⟩ rfl
  have hthree : Course Proper out threeLines (opening.take 3) (opened.take 3)
      (following threeLines (opening.take 3)) := htwo.after 100 trivial rfl
  exact hthree.after 100 (List.mem_cons_self ..) rfl

theorem guest_known (outcomes : List Outcome) : guest ∈ known (opened ++ outcomes) := by
  rw [known, List.filterMap_append]
  exact List.mem_append_left _ (List.mem_cons_of_mem _ (List.mem_singleton_self _))

theorem course_rollover (out : Outside) :
    ∃ w, Course Proper out threeLines rollover rolledOver w ∧ w.Alike overtaken := by
  have hnext : (following threeLines opening).hub.nextRoom + Int32.ofNat (UInt32.size - 1) = 1 := by
    decide
  have hhost : host ∈ known opened := List.mem_cons_self ..
  have hvalid : checkSettings "arena" 4 1 = .ok () := rfl
  have hnoted : (following threeLines opening).hub.memberships.get? host.id = some 1 := rfl
  obtain ⟨v, hcourse, -, hv⟩ := (course_opening out).waste none ⟨7, 3, "aa", "song", .keys4, .zero⟩
    hhost hvalid rfl hnoted (UInt32.size - 1)
  rw [hnext] at hv
  exact hcourse.after_alike (v := exhausted) hv 100 (guest_known _) rfl

theorem idsGiven_rollover : idsGiven rollover rolledOver = UInt32.size + 1 := by
  have hopening : idsGiven opening opened = 1 := rfl
  have hlast : idsGiven [packet guest arena] [.packet (.ok ())] = 1 := rfl
  have hrefused : (packet host arena).takesId (.packet (.error (.room .alreadyMember))) = true :=
    rfl
  rw [rollover, rolledOver, List.append_assoc, List.append_assoc, idsGiven_append rfl, hopening,
    idsGiven_append (by rw [List.length_replicate, List.length_replicate]), hlast,
    idsGiven_replicate, if_pos hrefused]
  rfl

end Act

end RhythmLobby
