import RhythmLobby.Table
import RhythmLobby.Text.Glob

/-!
# The store behind the cache

A store holds texts and hashes under keys.

* `Cache.Call`        what can be asked of a store;
* `Cache.perform`     the store after a call, and how many records a clearing removed;
* `Cache.Journal`     a store with a record of all calls, some of which may fail.
-/

namespace RhythmLobby.Cache

/-- what is stored under a key -/
inductive Record where
  | text (s : String)
  | hash (fields : Table String String)

abbrev Store : Type := Table String Record

/-- what can be asked of a store -/
inductive Call where
  | set (key value : String)
  /-- a hash with these fields and no others -/
  | hash (key : String) (fields : List (String × String))
  | delete (keys : List String)
  /-- deletes all records whose key is in the set of the pattern -/
  | deleteMatching (pattern : String)
  deriving DecidableEq

/-- the store after a call; a pattern may be flawed, and a clearing tells how much it removed -/
def perform (s : Store) : Call → Except Glob.Flaw (Option Nat × Store)
  | .set key value => .ok (none, s.insert key (.text value))
  | .hash key fields => .ok (none, s.insert key (.hash (Table.ofList fields)))
  | .delete keys => .ok (none, s.eraseAll keys)
  | .deleteMatching pattern => do
    let tokens ← Glob.parse pattern
    let kept := s.keep fun key => !Glob.covers tokens key.toList
    return (some (s.size - kept.size), kept)

/-! ## Calls that may fail -/

/-- a call that reached the store; a call that failed changed nothing -/
structure Entry where
  call : Call
  failed : Bool
  removed : Option Nat
  deriving DecidableEq

/-- a store, the calls that reached it in order, and which of all calls fail, by their number -/
structure Journal where
  store : Store
  entries : List Entry
  outage : Nat → Bool

namespace Journal

/-- nothing stored, and no call ever fails -/
def empty : Journal := ⟨∅, [], fun _ => false⟩

/-- whether a call succeeded, and the journal after it -/
def call (j : Journal) (c : Call) : Bool × Journal :=
  if j.outage j.entries.length then
    (false, { j with entries := j.entries ++ [⟨c, true, none⟩] })
  else
    match perform j.store c with
    | .ok (removed, store) =>
      (true, { j with store := store, entries := j.entries ++ [⟨c, false, removed⟩] })
    | .error _ => (false, { j with entries := j.entries ++ [⟨c, true, none⟩] })

end Journal
end RhythmLobby.Cache
