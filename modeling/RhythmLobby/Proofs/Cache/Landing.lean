import RhythmLobby.Hub.World
import RhythmLobby.Proofs.Cache.Keys

/-!
# What an update leaves in the cache

* `Call.leaves`            what a call leaves under one key;
* `leaves_session` to `leaves_noRoom`   the same for the updates of the server;
* `World.Reliable`         no call on the store ever fails;
* `World.record_update`    an update of a reliable store leaves what its call leaves;
* `World.record_perform`   the same of any effect.
-/

namespace RhythmLobby
open Cache

/-! ## One call -/

/-- what a call leaves under a key that held `r` -/
def Cache.Call.leaves (c : Call) (key : String) (r : Option Record) : Option Record :=
  match c with
  | .set k value => if k = key then some (.text value) else r
  | .hash k fields => if k = key then some (.hash (Table.ofList fields)) else r
  | .delete ks => if key ∈ ks then none else r
  | .deleteMatching pattern =>
    match Glob.parse pattern with
    | .ok tokens => if Glob.covers tokens key.toList then none else r
    | .error _ => r

theorem Table.get?_eraseAll {κ ν : Type} [DecidableEq κ] (t : Table κ ν) (ks : List κ) (k : κ) :
    (t.eraseAll ks).get? k = if k ∈ ks then none else t.get? k := by
  induction ks generalizing t with
  | nil => rfl
  | cons k' ks ih =>
    show ((t.erase k').eraseAll ks).get? k = _
    rw [ih, Table.get?_erase]
    by_cases hk : k ∈ ks
    · simp [hk]
    · by_cases he : k' = k
      · simp [he]
      · simp [hk, he, Ne.symm he]

/-- a call that changed the store left what it had to leave -/
theorem Cache.get?_perform {s s' : Store} {c : Call} {n : Option Nat}
    (h : perform s c = .ok (n, s')) (key : String) : s'.get? key = c.leaves key (s.get? key) := by
  cases c with
  | set k value =>
    cases h
    exact Table.get?_insert s k key _
  | hash k fields =>
    cases h
    exact Table.get?_insert s k key _
  | delete ks =>
    cases h
    exact Table.get?_eraseAll s ks key
  | deleteMatching pattern =>
    cases hp : Glob.parse pattern with
    | error e =>
      rw [perform, hp] at h
      cases h
    | ok tokens =>
      rw [perform, hp] at h
      cases h
      rw [Table.get?_keep]
      simp only [Call.leaves, hp]
      cases Glob.covers tokens key.toList <;> rfl

/-- a call with a flawed pattern leaves everything as it was -/
theorem Cache.leaves_of_error {s : Store} {c : Call} {e : Glob.Flaw}
    (h : perform s c = .error e) (key : String) (r : Option Record) : c.leaves key r = r := by
  cases c with
  | set k value => cases h
  | hash k fields => cases h
  | delete ks => cases h
  | deleteMatching pattern =>
    cases hp : Glob.parse pattern with
    | error e => simp only [Call.leaves, hp]
    | ok tokens =>
      rw [perform, hp] at h
      cases h

namespace Cache.Journal

theorem outage_call (j : Journal) (c : Call) : (j.call c).2.outage = j.outage := by
  unfold call
  split
  · rfl
  · split <;> rfl

theorem get?_call {j : Journal} (hj : ∀ n, j.outage n = false) (c : Call) (key : String) :
    (j.call c).2.store.get? key = c.leaves key (j.store.get? key) := by
  unfold call
  rw [hj]
  cases hp : perform j.store c with
  | ok r => exact get?_perform hp key
  | error e => exact (leaves_of_error hp key _).symm

theorem calls_call (j : Journal) (c : Call) :
    (j.call c).2.entries.map Entry.call = j.entries.map Entry.call ++ [c] := by
  unfold call
  split
  · exact List.map_append
  · split <;> exact List.map_append

end Cache.Journal

/-! ## The updates of the server -/

namespace Cache

/-- the record of a room's settings -/
def Record.listing (l : Listing) : Record := .hash (Table.ofList (listingFields l))

/-- the record of a member of a room -/
def Record.player (p : PlayerRecord) : Record := .hash (Table.ofList (playerFields p))

/-- the record of a status -/
def Record.status (s : ClientStatus) : Record := .hash (Table.ofList (statusFields s))

/-- the record of a session -/
def Record.session (user : Int32) : Record := .text (wholeText user.toInt)

namespace Update

variable (k : Key) (r : Option Record)

theorem leaves_set (l : Key) (value : String) :
    (Call.set l.text value).leaves k.text r = if k = l then some (.text value) else r := by
  simp only [Call.leaves, Key.text_inj, eq_comm (a := l)]

theorem leaves_hash (l : Key) (fields : List (String × String)) :
    (Call.hash l.text fields).leaves k.text r =
      if k = l then some (.hash (Table.ofList fields)) else r := by
  simp only [Call.leaves, Key.text_inj, eq_comm (a := l)]

theorem leaves_delete (ls : List Key) :
    (Call.delete (ls.map Key.text)).leaves k.text r = if k ∈ ls then none else r := by
  simp only [Call.leaves, List.mem_map, Key.text_inj, exists_eq_right]

theorem leaves_session (token : String) (user : Int32) :
    (session token user).call.leaves k.text r =
      if k = .session token then some (.session user) else r :=
  leaves_set k r (.session token) _

theorem leaves_noSession (token : String) (user : Int32) :
    (noSession token user).call.leaves k.text r =
      if k = .session token ∨ k = .status user then none else r := by
  have := leaves_delete k r [.session token, .status user]
  simp only [List.mem_cons, List.not_mem_nil, or_false] at this
  exact this

theorem leaves_status (user : Int32) (s : ClientStatus) :
    (status user s).call.leaves k.text r = if k = .status user then some (.status s) else r :=
  leaves_hash k r (.status user) _

theorem leaves_noStatus (user : Int32) :
    (noStatus user).call.leaves k.text r = if k = .status user then none else r := by
  have := leaves_delete k r [.status user]
  simp only [List.mem_singleton] at this
  exact this

theorem leaves_listing (room : Int32) (l : Listing) :
    (listing room l).call.leaves k.text r = if k = .room room then some (.listing l) else r :=
  leaves_hash k r (.room room) _

theorem leaves_player (room : Int32) (p : PlayerRecord) :
    (player room p).call.leaves k.text r =
      if k = .player room p.profile.userId then some (.player p) else r :=
  leaves_hash k r (.player room p.profile.userId) _

theorem leaves_noPlayer (room user : Int32) :
    (noPlayer room user).call.leaves k.text r = if k = .player room user then none else r := by
  have := leaves_delete k r [.player room user]
  simp only [List.mem_singleton] at this
  exact this

theorem leaves_noRoom (room : Int32) (members : List Int32) :
    (noRoom room members).call.leaves k.text r =
      if k = .room room ∨ ∃ user ∈ members, .player room user = k then none else r := by
  have := leaves_delete k r (.room room :: members.map (.player room))
  simp only [List.mem_cons, List.mem_map, List.map_cons, List.map_map] at this
  exact this

end Update
end Cache

/-! ## Updates and other effects -/

namespace World

/-- no call on the store ever fails -/
def Reliable (w : World) : Prop := ∀ n, w.cache.outage n = false

/-- a server that has just started, without accounts and with the standard limits -/
def blank : World := .start (.start .empty .standard .standard 0)

theorem reliable_blank : blank.Reliable := fun _ => rfl

/-- what the store holds under a key -/
def record (w : World) (key : String) : Option Record := w.cache.store.get? key

/-- the calls on the store so far -/
def calls (w : World) : List Call := w.cache.entries.map Entry.call

theorem update_cache (w : World) (u : Update) : (w.update u).cache = (w.cache.call u.call).2 := by
  unfold update
  cases hc : w.cache.call u.call with
  | mk ok cache => cases ok <;> rfl

theorem record_update {w : World} (hw : w.Reliable) (u : Update) (key : String) :
    (w.update u).record key = u.call.leaves key (w.record key) := by
  rw [record, update_cache]
  exact Journal.get?_call hw u.call key

theorem reliable_update {w : World} (hw : w.Reliable) (u : Update) : (w.update u).Reliable := by
  intro n
  rw [update_cache, Journal.outage_call, hw]

theorem write_cache {w w' : World} {p : ServerPacket} {line : Nat}
    (h : w.write p line = .ok w') : w'.cache = w.cache := by
  unfold write at h
  split at h
  · cases h
  · rename_i l _
    cases hl : l.write p with
    | error _ => rw [hl] at h; cases h
    | ok l' => rw [hl] at h; cases h; rfl

theorem deliver_cache (w : World) (p : ServerPacket) (s : Session) :
    (w.deliver p s).2.cache = w.cache := by
  unfold deliver
  cases hw : w.write p s.line with
  | ok w' => exact (write_cache hw : w'.cache = w.cache)
  | error e => rfl

theorem deliverEach_cache (p : ServerPacket) (sessions : List Session) (w : World) :
    (w.deliverEach p sessions).2.cache = w.cache := by
  induction sessions generalizing w with
  | nil => rfl
  | cons s rest ih =>
    show ((w.deliver p s).2.deliverEach p rest).2.cache = w.cache
    rw [ih, deliver_cache]

theorem fanOut_cache (w : World) (p : ServerPacket) (sessions : List Session) :
    (w.fanOut p sessions).2.cache = w.cache := by
  unfold fanOut
  split
  · rfl
  · exact deliverEach_cache p sessions w

theorem offer_cache (w : World) (p : ServerPacket) (line : Nat) :
    (w.offer p line).cache = w.cache := by
  unfold offer
  cases hw : w.write p line with
  | ok w' => exact (write_cache hw : w'.cache = w.cache)
  | error e => rfl

end World

namespace Effect

/-- what an effect leaves under a key that held `r` -/
def leaves (e : Effect) (key : String) (r : Option Record) : Option Record :=
  match e with
  | .update u => u.call.leaves key r
  | _ => r

/-- the call on the store, if the effect is one -/
def call? : Effect → Option Call
  | .update u => some u.call
  | _ => none

theorem perform_cache {e : Effect} (h : e.call? = none) (w : World) :
    (e.perform w).cache = w.cache := by
  cases e with
  | update u => cases h
  | deliver p s => exact w.deliver_cache p s
  | fanOut p sessions => exact w.fanOut_cache p sessions
  | offer p line => exact w.offer_cache p line
  | hangUp line => rfl
  | note h => rfl
  | gaugeUsers n => rfl
  | gaugeRooms n => rfl

theorem leaves_of_call? {e : Effect} {c : Call} (h : e.call? = some c) (key : String)
    (r : Option Record) : e.leaves key r = c.leaves key r := by
  cases e with
  | update u =>
    cases h
    rfl
  | _ => cases h

theorem leaves_of_call?_eq_none {e : Effect} (h : e.call? = none) (key : String)
    (r : Option Record) : e.leaves key r = r := by
  cases e with
  | update u => cases h
  | _ => rfl

end Effect

namespace World

theorem record_perform {w : World} (hw : w.Reliable) (e : Effect) (key : String) :
    (e.perform w).record key = e.leaves key (w.record key) := by
  cases hc : e.call? with
  | none => rw [record, e.perform_cache hc, e.leaves_of_call?_eq_none hc, record]
  | some c =>
    cases e with
    | update u => exact record_update hw u key
    | _ => cases hc

theorem reliable_perform {w : World} (hw : w.Reliable) (e : Effect) : (e.perform w).Reliable := by
  cases hc : e.call? with
  | none => exact fun n => by rw [e.perform_cache hc, hw]
  | some c =>
    cases e with
    | update u => exact reliable_update hw u
    | _ => cases hc

/-- every call is noted in the order in which the calls reach the store -/
theorem calls_perform (w : World) (e : Effect) :
    (e.perform w).calls = w.calls ++ e.call?.toList := by
  cases hc : e.call? with
  | none =>
    rw [calls, e.perform_cache hc, calls]
    exact (List.append_nil _).symm
  | some c =>
    cases e with
    | update u =>
      cases hc
      show (w.update u).cache.entries.map Entry.call = _
      rw [update_cache, Journal.calls_call]
      rfl
    | _ => cases hc

end World
end RhythmLobby
