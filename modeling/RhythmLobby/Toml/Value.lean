import RhythmLobby.Number.Binary64

/-!
# TOML values

A `Toml.Value` is what a TOML text says.  A table also keeps how it was written, since that decides
what later lines may still add to it.

* `Toml.Form`                 how a table was written;
* `Toml.Value`                a value;
* `Toml.lookup`, `Toml.put`   the value under a name, and the same table with another one.
-/

namespace RhythmLobby.Toml

inductive Form where
  /-- between braces: nothing can be added -/
  | inline
  /-- by a dotted key -/
  | dotted
  /-- as part of a longer header -/
  | implied
  /-- by a header of its own -/
  | headed
  deriving DecidableEq

inductive Value where
  | string (s : String)
  | integer (n : Int)
  | float (x : Binary64)
  | bool (b : Bool)
  /-- a date, a time or both, as written -/
  | moment (text : String)
  | array (items : List Value)
  | table (form : Form) (members : List (String × Value))
  /-- the tables of one repeated header -/
  | tables (items : List (List (String × Value)))

/-- the members of a table; their names differ -/
abbrev Members : Type := List (String × Value)

/-- the member with a name -/
def lookup (ms : Members) (name : String) : Option Value := (ms.find? (·.1 == name)).map (·.2)

/-- the same members, with another value under a name -/
def put (ms : Members) (name : String) (v : Value) : Members :=
  match ms with
  | [] => [(name, v)]
  | (k, w) :: rest => if k = name then (name, v) :: rest else (k, w) :: put rest name v

theorem lookup_put_self (ms : Members) (name : String) (v : Value) :
    lookup (put ms name v) name = some v := by
  induction ms with
  | nil => simp [put, lookup]
  | cons m ms ih =>
    obtain ⟨k, w⟩ := m
    by_cases h : k = name
    · simp [put, lookup, h]
    · simpa [put, lookup, h] using ih

theorem lookup_put_of_ne (ms : Members) {name other : String} (v : Value) (h : other ≠ name) :
    lookup (put ms name v) other = lookup ms other := by
  induction ms with
  | nil => simp [put, lookup, Ne.symm h]
  | cons m ms ih =>
    obtain ⟨k, w⟩ := m
    by_cases hk : k = name
    · simp [put, lookup, hk, Ne.symm h]
    · by_cases ho : k = other
      · simp [put, lookup, ho, h]
      · simpa [put, lookup, hk, ho] using ih

end RhythmLobby.Toml
