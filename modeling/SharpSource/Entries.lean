/-!
# Entries

A list of **entries** holds values under keys, each key at most once. Putting a
key that is there replaces its value and keeps its place; any other key goes to
the end. So the keys stand in the order of their first appearance.
-/

namespace SharpSource.Entries

variable {κ α : Type} [DecidableEq κ]

/-- The value under a key. -/
def get? (key : κ) (l : List (κ × α)) : Option α :=
  (l.find? (·.1 == key)).map (·.2)

/-- The entries after a value was put under a key. -/
def put (key : κ) (value : α) : List (κ × α) → List (κ × α)
  | [] => [(key, value)]
  | e :: rest => if e.1 = key then (key, value) :: rest else e :: put key value rest

/-- A key that is there keeps its place, and another one goes to the end. -/
theorem map_fst_put (key : κ) (value : α) (l : List (κ × α)) :
    (put key value l).map (·.1) =
      if key ∈ l.map (·.1) then l.map (·.1) else l.map (·.1) ++ [key] := by
  induction l with
  | nil => simp [put]
  | cons e l ih =>
    by_cases h : e.1 = key
    · simp [put, h]
    · have h' : ¬key = e.1 := fun hn => h hn.symm
      rw [put, if_neg h, List.map_cons, ih, List.map_cons]
      by_cases hm : key ∈ l.map (·.1) <;> simp [hm, h']

/-- Keys that stand there once do so after putting. -/
theorem nodup_map_fst_put {key : κ} {value : α} {l : List (κ × α)}
    (h : (l.map (·.1)).Nodup) : ((put key value l).map (·.1)).Nodup := by
  rw [map_fst_put]
  split
  · exact h
  · rename_i hn
    rw [List.nodup_append]
    refine ⟨h, by simp, fun a ha b hb => ?_⟩
    rintro rfl
    exact hn (List.mem_singleton.mp hb ▸ ha)

/-- After a value was put under a key, it is found there, and all else as
before. -/
theorem get?_put_entries (key other : κ) (value : α) (l : List (κ × α)) :
    get? other (put key value l) = if other = key then some value else get? other l := by
  induction l with
  | nil =>
    by_cases h : other = key
    · simp [get?, put, h]
    · have h' : ¬key = other := fun hn => h hn.symm
      simp [get?, put, h, h']
  | cons e l ih =>
    by_cases he : e.1 = key
    · by_cases h : other = key
      · simp [get?, put, he, h]
      · have h' : ¬key = other := fun hn => h hn.symm
        simp [get?, put, he, h, h']
    · rw [put, if_neg he]
      by_cases heo : e.1 = other
      · have h : ¬other = key := fun hn => he (heo.trans hn)
        simp [get?, heo, h]
      · simpa [get?, heo] using ih

end SharpSource.Entries
