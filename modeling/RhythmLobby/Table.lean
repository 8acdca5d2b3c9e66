/-!
# Finite tables

A `Table` gives finitely many keys one value each.  A concurrent map goes through its entries in no
particular order; here they stand in the order in which the keys were first entered.

* `Table.get?`, `Table.insert`, `Table.erase`   look up, enter or replace, take out;
* `Table.keep`                                  the entries whose key satisfies a test;
* `get?_insert`, `get?_erase`                   what a look-up sees afterwards.
-/

namespace RhythmLobby

structure Table (κ ν : Type) where
  entries : List (κ × ν)
  nodup : (entries.map (·.1)).Nodup

namespace Table

variable {κ ν : Type}

theorem eq_of_entries {t t' : Table κ ν} (h : t.entries = t'.entries) : t = t' := by
  cases t
  cases t'
  cases h
  rfl

def empty : Table κ ν := ⟨[], List.nodup_nil⟩

instance : EmptyCollection (Table κ ν) := ⟨empty⟩

instance : Inhabited (Table κ ν) := ⟨empty⟩

def keys (t : Table κ ν) : List κ := t.entries.map (·.1)

def values (t : Table κ ν) : List ν := t.entries.map (·.2)

def size (t : Table κ ν) : Nat := t.entries.length

def keep (p : κ → Bool) (t : Table κ ν) : Table κ ν :=
  ⟨t.entries.filter fun e => p e.1, (List.filter_sublist.map _).nodup t.nodup⟩

variable [DecidableEq κ]

def get? (t : Table κ ν) (k : κ) : Option ν := (t.entries.find? (·.1 = k)).map (·.2)

def contains (t : Table κ ν) (k : κ) : Bool := (t.get? k).isSome

def replace (k : κ) (v : ν) (entries : List (κ × ν)) : List (κ × ν) :=
  entries.map fun e => if e.1 = k then (k, v) else e

theorem keys_replace (k : κ) (v : ν) (entries : List (κ × ν)) :
    (replace k v entries).map (·.1) = entries.map (·.1) := by
  induction entries with
  | nil => rfl
  | cons e rest ih =>
    by_cases h : e.1 = k
    · simpa [replace, h] using ih
    · simpa [replace, h] using ih

/-- the value of a key, entered behind all others if the key is new -/
def insert (t : Table κ ν) (k : κ) (v : ν) : Table κ ν :=
  if h : k ∈ t.entries.map (·.1) then
    ⟨replace k v t.entries, by rw [keys_replace]; exact t.nodup⟩
  else
    ⟨t.entries ++ [(k, v)], by
      rw [List.map_append, List.nodup_append]
      refine ⟨t.nodup, by simp, ?_⟩
      intro a ha b hb
      rw [List.map_singleton, List.mem_singleton] at hb
      intro hab
      rw [hab, hb] at ha
      exact h ha⟩

def erase (t : Table κ ν) (k : κ) : Table κ ν := t.keep fun k' => k' ≠ k

def eraseAll (t : Table κ ν) (ks : List κ) : Table κ ν := ks.foldl erase t

/-- a table with the entries in order; a later entry replaces an earlier one of its key -/
def ofList (entries : List (κ × ν)) : Table κ ν :=
  entries.foldl (fun t e => t.insert e.1 e.2) empty

/-! ## What a look-up sees -/

theorem get?_empty (k : κ) : (∅ : Table κ ν).get? k = none := rfl

theorem get?_eq_none_iff {t : Table κ ν} {k : κ} : t.get? k = none ↔ k ∉ t.keys := by
  simp only [get?, keys, Option.map_eq_none_iff, List.find?_eq_none, decide_eq_true_eq,
    List.mem_map, not_exists, not_and]

theorem get?_of_mem {t : Table κ ν} {k : κ} {v : ν} (h : (k, v) ∈ t.entries) :
    t.get? k = some v := by
  obtain ⟨entries, hnodup⟩ := t
  induction entries with
  | nil => cases h
  | cons e rest ih =>
    rw [List.map_cons, List.nodup_cons] at hnodup
    rw [get?, List.find?_cons]
    rcases List.mem_cons.mp h with rfl | h
    · simp
    · have hne : e.1 ≠ k := fun hk => hnodup.1 (hk ▸ List.mem_map.mpr ⟨_, h, rfl⟩)
      simp only [hne, decide_false]
      exact ih hnodup.2 h

theorem find?_replace (k k' : κ) (v : ν) (entries : List (κ × ν)) :
    (replace k v entries).find? (·.1 = k') =
      if k = k' then (entries.find? (·.1 = k)).map fun _ => (k, v)
      else entries.find? (·.1 = k') := by
  induction entries with
  | nil => split <;> rfl
  | cons e rest ih =>
    rw [replace, List.map_cons, List.find?_cons]
    rw [replace] at ih
    by_cases he : e.1 = k <;> by_cases hk : k = k'
    · subst hk; simp [he]
    · have : e.1 ≠ k' := fun h => hk (he ▸ h)
      simp [he, hk, ih]
    · subst hk; simp [he, ih]
    · rw [if_neg he, if_neg hk]
      by_cases h : e.1 = k'
      · simp [h]
      · simp [h, ih, hk]

theorem get?_insert (t : Table κ ν) (k k' : κ) (v : ν) :
    (t.insert k v).get? k' = if k = k' then some v else t.get? k' := by
  rw [insert]
  by_cases hm : k ∈ t.entries.map (·.1)
  · rw [dif_pos hm, get?, find?_replace]
    by_cases hk : k = k'
    · obtain ⟨e, he, hek⟩ := List.mem_map.mp hm
      have : (t.entries.find? (·.1 = k)).isSome = true := by
        rw [List.find?_isSome]
        exact ⟨e, he, by simpa using hek⟩
      obtain ⟨x, hx⟩ := Option.isSome_iff_exists.mp this
      rw [if_pos hk, if_pos hk, hx]
      rfl
    · simp [hk, get?]
  · rw [dif_neg hm, get?, List.find?_append]
    by_cases hk : k = k'
    · have : t.entries.find? (·.1 = k') = none := by
        rw [List.find?_eq_none]
        intro e he hek
        exact hm (hk ▸ List.mem_map.mpr ⟨e, he, by simpa using hek⟩)
      simp [hk, this]
    · simp [hk, get?]

theorem get?_keep (t : Table κ ν) (p : κ → Bool) (k : κ) :
    (t.keep p).get? k = if p k then t.get? k else none := by
  rw [keep, get?, get?, List.find?_filter]
  by_cases hp : p k
  · rw [if_pos hp]
    congr 2
    funext e
    by_cases h : e.1 = k <;> simp [h, hp]
  · rw [if_neg hp, Option.map_eq_none_iff, List.find?_eq_none]
    rintro e _ h
    simp only [decide_eq_true_eq] at h
    exact hp (h.2 ▸ h.1)

theorem get?_erase (t : Table κ ν) (k k' : κ) :
    (t.erase k).get? k' = if k = k' then none else t.get? k' := by
  rw [erase, get?_keep]
  by_cases h : k = k'
  · simp [h]
  · simp [h, Ne.symm h]

end Table
end RhythmLobby
