import RhythmLobby.Proofs.Room.Rollover
import RhythmLobby.Proofs.Session.Books
import RhythmLobby.Proofs.Session.Halting

/-!
# The store mirrors memory

Acts are carried out one after another, each as a whole, with a store that takes every call.  After
each of them the store holds the records that memory calls for.

* `Session.takes_dispatch`   a packet, of a session in use or of one that has been torn down;
* `Hub.CallsFor`             the records that memory calls for;
* `Course.kept`              they are there after any acts;
* `Course.kept_amid`         memory is the same amid changes from outside;
* `Course.rated`             difficulties stay numbers, so that acts come to an end;
* `store_mirrors_memory`     the store holds these records, and no others.
-/

namespace RhythmLobby
open Cache Routine World

/-! ## Packets -/

namespace Session

variable {known : Session → Prop} {n : Nat} {s : Session}

theorem takes_modify (hs : known s) {f : SessionState → SessionState}
    (hretired : ∀ state, (f state).retired = state.retired)
    (hstatus : ∀ state, (f state).status = state.status) :
    (Routine.change fun h => h.modifyState s f).Takes (Kept known n) fun _ => Kept known n :=
  takes_change fun _ hw => ⟨hw.sessions.modifyState hs hretired hstatus,
    hw.rooms.elsewhere ⟨rfl, rfl, rfl⟩ rfl⟩

theorem takes_sendStats (hs : known s) :
    s.sendStats.Takes (Kept known n) fun _ => Kept known n := by
  refine takes_bind (Q := fun _ => Kept known n) ?_ fun loaded => takes_kept_of_silent ?_
  · refine takes_bind (takes_kept_of_silent (silent_read _)) fun loaded => ?_
    cases loaded with
    | error e => exact takes_done fun _ hw => hw
    | ok stats =>
      exact takes_bind (takes_modify hs (fun _ => rfl) fun _ => rfl) fun _ =>
        takes_done fun _ hw => hw
  · cases loaded with
    | error e => exact within_done _
    | ok _ =>
      exact within_bind (silent_read _) fun _ => within_bind (s.silent_send _) fun _ =>
        within_done _

theorem takes_changeStatus (hs : known s) (status : ClientStatus) :
    (s.changeStatus status).Takes (Kept known n) fun _ => Kept known n := by
  intro w x w' hw h
  have hreliable := hw.sessions.reliable
  obtain ⟨-, hsame, hreliable', hrecord⟩ :=
    (Status.statusOnly_changeStatus s status).ends h hreliable
  refine ⟨hw.sessions.changeStatus hs h, ?_⟩
  obtain ⟨k, hk, hb, ho⟩ := hw.rooms
  refine ⟨k, hk, hb.elsewhere hsame hreliable' fun l hl => hrecord _ fun user heq => ?_,
    hsame.allOpen ho⟩
  rw [Key.text_inj] at heq
  subst heq
  exact hl

theorem takes_handle (hs : known s) (p : ClientPacket) :
    (s.handle p).Takes (Kept known n) fun x => Kept known (n + (p.takesId x).toNat) := by
  by_cases hp : p.OfRoom
  · exact takes_kept_of_room (s.roomTask_handle hp)
  cases p with
  | login name password => exact takes_done fun _ hw => hw
  | ping =>
    exact takes_bind (takes_kept_of_silent (s.silent_send _)) fun _ => takes_done fun _ hw => hw
  | pong =>
    refine takes_bind (Q := fun _ => Kept known n) (takes_change fun w hw => ?_) fun _ =>
      takes_done fun _ hw => hw
    exact ⟨hw.sessions.modifyState hs (fun _ => rfl) fun _ => rfl,
      hw.rooms.elsewhere ⟨rfl, rfl, rfl⟩ rfl⟩
  | status status => exact takes_changeStatus hs status
  | processes list =>
    exact takes_bind (takes_modify hs (fun _ => rfl) fun _ => rfl) fun _ =>
      takes_done fun _ hw => hw
  | statsRequest => exact takes_sendStats hs
  | _ => exact absurd trivial hp

theorem takes_dispatch (hs : known s) (p : ClientPacket) :
    (s.dispatch p).Takes (Kept known n) fun x => Kept known (n + (p.takesId x).toNat) := by
  refine takes_bind (takes_handle hs p) fun result => ?_
  have hlast : ∀ e : Effect, e.call? = none → ((emit e).bind fun _ => done result).Takes
      (Kept known (n + (p.takesId result).toNat)) fun x => Kept known (n + (p.takesId x).toNat) :=
    fun e he => takes_bind (takes_kept_of_silent (silent_emit he)) fun _ =>
      takes_done fun _ hw => hw
  cases result with
  | error e => exact takes_bind (takes_kept_of_silent (silent_emit rfl)) fun _ => hlast _ rfl
  | ok _ => exact hlast _ rfl

end Session

/-! ## What memory calls for -/

/-- The records that memory calls for: the user of every session that is online and its status, the
settings of every open room and all of its members. -/
inductive Hub.CallsFor (h : Hub) : Key → Record → Prop
  | session {token : String} {s : Session} : h.directory.ofToken token = some s →
      CallsFor h (.session token) (.session s.id)
  | status {token : String} {s : Session} : h.directory.ofToken token = some s →
      CallsFor h (.status s.id) (.status (h.stateOf s).status)
  | room {id : Int32} {ref : RoomRef} : h.openRooms.get? id = some ref →
      CallsFor h (.room id) (.listing (h.room ref).listing)
  | player {id : Int32} {ref : RoomRef} {m : Member} : h.openRooms.get? id = some ref →
      m ∈ (h.room ref).members → CallsFor h (.player id m.id) (.player m.record)

namespace World

variable {known : Session → Prop} {n : Nat} {w : World}

theorem Kept.record_of_callsFor (hw : w.Kept known n) {k : Key} {r : Record}
    (h : w.hub.CallsFor k r) : w.record k.text = some r := by
  obtain ⟨_, -, hb, ho⟩ := hw.rooms
  cases h with
  | session hs => rw [hw.sessions.session, hs, Option.map_some]
  | status hs =>
    have hcurrent := Hub.currentStatus_of_some (hw.sessions.orderly.current hs)
    exact (hw.sessions.status _).trans (by rw [hcurrent, Option.map_some])
  | room hr =>
    rw [hb.listing, Hub.listingOf_of_some hr, Room.liveListing_of_open (ho hr), Option.map_some]
  | @player id ref m hr hm =>
    have hplayer : w.hub.playerOf id m.id = some (.player m.record) := by
      rw [Hub.playerOf_of_some hr, Room.liveRecord_of_open (ho hr),
        Room.record_of_mem (hb.numbered.members hr) hm, Option.map_some]
    rcases hb.player id m.id with hrecord | ⟨hnone, -⟩
    · exact hrecord.trans hplayer
    · rw [hplayer] at hnone
      cases hnone

/-- nothing else is there, unless ids of rooms have begun anew -/
theorem Kept.callsFor_of_record (hw : w.Kept known n) {key : String} {r : Record}
    (h : w.record key = some r) : (∃ k : Key, key = k.text ∧ w.hub.CallsFor k r) ∨
      (UInt32.size < n ∧ ∃ room user, key = (Key.player room user).text) := by
  obtain ⟨m, hm, hb, ho⟩ := hw.rooms
  obtain ⟨k, honline, rfl⟩ := hw.sessions.owned key (by rw [h]; nofun)
  cases k with
  | online => exact absurd rfl honline
  | session token =>
    rw [hw.sessions.session] at h
    obtain ⟨s, hs, rfl⟩ := Option.map_eq_some_iff.mp h
    exact .inl ⟨_, rfl, .session hs⟩
  | status user =>
    rw [hw.sessions.status user] at h
    obtain ⟨_, hs, rfl⟩ := Option.map_eq_some_iff.mp h
    obtain ⟨s, huser, rfl⟩ := Option.map_eq_some_iff.mp hs
    have hcoherent := hw.sessions.orderly.coherent
    cases hcoherent.user huser
    exact .inl ⟨_, rfl, .status (hcoherent.known huser)⟩
  | room id =>
    rw [hb.listing] at h
    obtain ⟨ref, hr, h⟩ := Option.bind_eq_some_iff.mp h
    rw [Room.liveListing_of_open (ho hr), Option.map_some] at h
    cases h
    exact .inl ⟨_, rfl, .room hr⟩
  | player id user =>
    rcases hb.player id user with hrecord | ⟨-, hover⟩
    · rw [hrecord] at h
      obtain ⟨ref, hr, h⟩ := Option.bind_eq_some_iff.mp h
      rw [Room.liveRecord_of_open (ho hr)] at h
      obtain ⟨record, hrecord, rfl⟩ := Option.map_eq_some_iff.mp h
      obtain ⟨m, hmember, rfl⟩ := Option.map_eq_some_iff.mp hrecord
      cases Room.member?_id hmember
      exact .inl ⟨_, rfl, .player hr (List.mem_of_find?_eq_some hmember)⟩
    · exact .inr ⟨Nat.lt_of_lt_of_le hover hm, id, user, rfl⟩

end World

/-! ## Acts -/

namespace Act

variable {known : List Session} {n : Nat} {w w' : World} {act : Act} {o : Outcome}
  {es : List Effect}

/-- the difficulty of a map that is named is a number -/
def Rated : Act → Prop
  | packet _ p => p.Rated
  | _ => True

theorem kept (h : act.task.Does w o w' es) (hmay : act.OfKnown known w)
    (hw : w.Kept (· ∈ known) n) :
    w'.Kept (· ∈ known ++ o.session?.toList) (n + (act.takesId o).toNat) := by
  have hsame : ∀ s, s ∈ known ++ Outcome.nothing.session?.toList → s ∈ known :=
    fun s hs => (List.append_nil known) ▸ hs
  have hdoes := act.does h
  cases act with
  | login profile token line =>
    obtain ⟨x, rfl, hlogin⟩ := hdoes
    refine (takes_login profile token line hw hlogin.ends).of_known fun s hs => ?_
    rcases List.mem_append.mp hs with hs | hs
    · exact .inl hs
    · cases x with
      | error e => cases hs
      | ok s' =>
        have heq : s = s' := List.mem_singleton.mp hs
        rw [heq]
        exact .inr rfl
  | packet s p =>
    obtain ⟨x, rfl, hpacket⟩ := hdoes
    exact (Session.takes_dispatch hmay p hw hpacket.ends).of_known hsame
  | disconnect token =>
    obtain ⟨rfl, hgo⟩ := hdoes
    exact (takes_disconnect token hw hgo.ends).of_known hsame
  | shutdown =>
    obtain ⟨rfl, hgo⟩ := hdoes
    exact (takes_shutdown hw hgo.ends).of_known hsame
  | elapse clock database =>
    obtain ⟨rfl, rfl, -⟩ := hdoes
    let w' : World := { w with hub := { w.hub with clock := clock, database := database } }
    have hstatus : ∀ user, w'.hub.currentStatus user = w.hub.currentStatus user := fun _ =>
      Hub.currentStatus_of_sessions hw.sessions.orderly rfl rfl
    have hkept : w'.Kept (· ∈ known) n :=
      ⟨hw.sessions.memory (Hub.sameUse_of_sessions rfl rfl) hstatus rfl,
        hw.rooms.elsewhere ⟨rfl, rfl, rfl⟩ rfl⟩
    exact hkept.of_known hsame

theorem ends_of_rated (hact : act.Rated) (hr : w.hub.Rated) (hw : w.Kept (· ∈ known) n) :
    ∃ o w', act.task.Ends w o w' ∧ w'.hub.Rated := by
  have hanswer : ∀ {α : Type} {r : Routine α} {f : α → Outcome},
      (∃ x w', r.Ends w x w' ∧ w'.hub.Rated) →
        ∃ o w', (r.bind fun x => done (f x)).Ends w o w' ∧ w'.hub.Rated := by
    intro α r f h
    obtain ⟨x, w', hends, hr'⟩ := h
    exact ⟨f x, w', ends_bind.mpr ⟨x, w', hends, ends_done.mpr ⟨rfl, rfl⟩⟩, hr'⟩
  cases act with
  | login profile token line => exact hanswer (halts_login profile token line w hr)
  | packet s p => exact hanswer (s.halts_dispatch hact hr hw.sessions.orderly.used)
  | disconnect token => exact hanswer (halts_disconnect token w hr)
  | shutdown => exact hanswer (halts_shutdown w hr)
  | elapse clock database => exact hanswer (halts_change (fun _ hm => hm.of_rooms rfl) w hr)

end Act

/-! ## All acts -/

theorem kept_start (database : Database) (timeouts : Timeouts) (flood : FloodLimits)
    (clock : Int64) :
    (World.start (.start database timeouts flood clock)).Kept (· ∈ ([] : List Session)) 0 := by
  let w : World := .start (.start database timeouts flood clock)
  have hsessions : w.SessionBooks (· ∈ ([] : List Session)) :=
    { reliable := fun _ => rfl
      orderly := Hub.orderly_of_empty rfl
      rightful := fun s hs => absurd hs List.not_mem_nil
      session := fun _ => rfl
      status := fun _ => rfl
      owned := fun _ h => absurd rfl h }
  have hnumbered : w.hub.Numbered 0 := ⟨rfl, nofun, nofun, nofun, nofun, nofun⟩
  have hrooms : w.RoomBooks 0 :=
    { reliable := fun _ => rfl
      numbered := hnumbered
      listing := fun _ => rfl
      player := fun _ _ => .inl rfl }
  have hopen : w.hub.AllOpen := nofun
  exact ⟨hsessions, 0, Nat.le_refl 0, hrooms, hopen⟩

namespace Course

variable {database : Database} {timeouts : Timeouts} {flood : FloodLimits} {clock : Int64}
  {past : List Act} {outcomes : List Outcome} {w : World}

theorem kept (h : Course Act.OfKnown .none (.start (.start database timeouts flood clock)) past
    outcomes w) : w.Kept (· ∈ known outcomes) (idsGiven past outcomes) := by
  induction h using Course.induction with
  | nil => exact kept_start database timeouts flood clock
  | @snoc past outcomes w w' act o es hpast hmay hgo ih =>
    rw [idsGiven_snoc hpast.length_eq, known_snoc]
    exact Act.kept hgo.alone hmay ih

theorem kept_amid {out : Outside} {start : World}
    (h : Course Act.OfKnown out start past outcomes w)
    (hstart : start.hub = .start database timeouts flood clock) :
    ∃ v : World, v.hub = w.hub ∧ v.Kept (· ∈ known outcomes) (idsGiven past outcomes) := by
  obtain ⟨v, hv, -, hcourse⟩ := h.afresh hstart
  exact ⟨v, hv, hcourse.kept⟩

/-- difficulties stay numbers, since a task that runs alone has one end only -/
theorem rated (h : Course Act.OfKnown .none (.start (.start database timeouts flood clock)) past
    outcomes w) (hpast : ∀ act ∈ past, act.Rated) : w.hub.Rated := by
  induction h using Course.induction with
  | nil => exact fun _ hr => absurd hr List.not_mem_nil
  | snoc hbefore _ hgo ih =>
    have hlast := hpast _ (List.mem_append_right _ (List.mem_singleton_self _))
    have hr := ih fun act hact => hpast act (List.mem_append_left _ hact)
    obtain ⟨o, w₁, hends, hr₁⟩ := Act.ends_of_rated hlast hr hbefore.kept
    rw [(hgo.alone.ends.unique hends).2]
    exact hr₁

end Course

section Mirror

variable {database : Database} {timeouts : Timeouts} {flood : FloodLimits} {clock : Int64}
  {start w : World} {past : List Act} {outcomes : List Outcome}

/-- After any acts on a server that has just started, with an empty store that takes every call, the
store holds the records that memory calls for.  It holds nothing else, unless more than `2 ^ 32` ids
of rooms have been given away: then records of players may have been left behind.  As long as
difficulties are numbers, every further act comes to an end. -/
theorem store_mirrors_memory (h : Course Act.OfKnown .keepingStore start past outcomes w)
    (hstart : start.hub = .start database timeouts flood clock) (hcache : start.cache = .empty) :
    (∀ k r, w.hub.CallsFor k r → w.record k.text = some r) ∧
    (∀ key r, w.record key = some r → (∃ k : Key, key = k.text ∧ w.hub.CallsFor k r) ∨
      (UInt32.size < idsGiven past outcomes ∧ ∃ room user, key = (Key.player room user).text)) ∧
    ((∀ act ∈ past, act.Rated) → ∀ act : Act, act.Rated → ∃ o w', act.task.Ends w o w') := by
  obtain ⟨v, hv, hvcache, hcourse⟩ := h.afresh hstart
  have hw := hcourse.kept.congr hv.symm (hvcache (fun _ _ => And.right) hcache).symm
  refine ⟨fun _ _ => hw.record_of_callsFor, fun _ _ => hw.callsFor_of_record,
    fun hpast act hact => ?_⟩
  obtain ⟨o, w', hends, -⟩ := Act.ends_of_rated hact (hv ▸ hcourse.rated hpast) hw
  exact ⟨o, w', hends⟩

end Mirror

open Act in
/-- When an id comes round, the record of a member of the older room stays, although nothing calls
for it any more. -/
theorem store_mirrors_memory_rollover :
    ∃ w, Course OfKnown .keepingStore threeLines rollover rolledOver w ∧
      idsGiven rollover rolledOver = UInt32.size + 1 ∧
      (w.record (Key.player 1 1).text).isSome = true ∧
      ∀ (k : Key) (r : Record), (Key.player 1 1).text = k.text → ¬ w.hub.CallsFor k r := by
  obtain ⟨w, hcourse, hmemory, hstore⟩ := course_rollover .keepingStore
  have hrecord : (w.record (Key.player 1 1).text).isSome = true := by
    rw [World.record, ← hstore]
    decide
  refine ⟨w, hcourse.ofKnown, idsGiven_rollover, hrecord, fun k r hk hcalls => ?_⟩
  rw [Key.text_inj] at hk
  rw [← hmemory] at hcalls
  cases hcalls with
  | @player id ref m hr hm =>
    obtain ⟨rfl, hid⟩ := Key.player.inj hk
    cases hr
    obtain rfl := List.mem_singleton.mp hm
    exact absurd hid (by decide)
  | _ => cases hk

/-! ## A late packet -/

namespace Act

/-- the first session of the host is still heard of once the host is online in another one -/
def story : List Act := evening ++ [packet host (.status .initial)]

def heard : World := (packet host (.status .initial)).task.after 60 (following threeLines evening)

theorem course_story (out : Outside) :
    Course OfKnown out threeLines story (greetings ++ [.packet (.ok ())]) heard :=
  ((course_evening out).mono fun _ _ _ h => h.1.ofKnown).after 60 (List.mem_cons_self ..) rfl

end Act

open Act in
theorem store_mirrors_memory_story :
    (∀ k r, heard.hub.CallsFor k r → heard.record k.text = some r) ∧
    (∀ key r, heard.record key = some r → ∃ k : Key, key = k.text ∧ heard.hub.CallsFor k r) ∧
    ((∀ act ∈ story, act.Rated) → ∀ act : Act, act.Rated → ∃ o w', act.task.Ends heard o w') := by
  have hids : idsGiven story (greetings ++ [.packet (.ok ())]) = 1 := rfl
  obtain ⟨hall, honly, hends⟩ := store_mirrors_memory (course_story .keepingStore) rfl rfl
  refine ⟨hall, fun key r hr => (honly key r hr).resolve_right ?_, hends⟩
  rw [hids]
  exact fun hover => absurd hover.1 (by decide)

end RhythmLobby
