/-!
# Looking up in records

A cache is a list of records, each identifier at most once. What a lookup finds after a record was
put in front, or after the records with some property were kept, follows from what it found
before.
-/

namespace OpaqueTokens.Cache

variable {κ ν : Type} [DecidableEq κ]

/-- The first record is found under its own key and hidden under any other. -/
theorem lookup_cons_eq (record : κ × ν) (rest : List (κ × ν)) (key : κ) :
    (record :: rest).lookup key = if key = record.1 then some record.2 else rest.lookup key := by
  obtain ⟨other, value⟩ := record
  rw [List.lookup_cons]
  by_cases h : key = other
  · simp [h]
  · simp [h, beq_eq_false_iff_ne.mpr h]

/-- A lookup is not touched by removing the records of another key. -/
theorem lookup_filter_ne (records : List (κ × ν)) (removed key : κ) :
    (records.filter fun record => record.1 ≠ removed).lookup key =
      if key = removed then none else records.lookup key := by
  induction records with
  | nil => simp
  | cons record rest ih =>
    by_cases hremoved : record.1 = removed
    · rw [List.filter_cons_of_neg (by simp [hremoved]), ih, lookup_cons_eq, hremoved]
      by_cases hkey : key = removed <;> simp [hkey]
    · rw [List.filter_cons_of_pos (by simp [hremoved]), lookup_cons_eq, lookup_cons_eq, ih]
      by_cases hkey : key = record.1
      · simp [hkey, hremoved]
      · simp [hkey]

/-- A key without a record is not found. -/
theorem lookup_eq_none_of_notMem {records : List (κ × ν)} {key : κ}
    (h : key ∉ records.map (·.1)) : records.lookup key = none := by
  rw [List.lookup_eq_none_iff]
  intro record hrecord
  have hne : key ≠ record.1 := fun heq => h (heq ▸ List.mem_map.mpr ⟨record, hrecord, rfl⟩)
  simpa using hne

/-- Where each key has one record, just the records are found. -/
theorem lookup_eq_some_iff {records : List (κ × ν)} (hdistinct : (records.map (·.1)).Nodup)
    {key : κ} {value : ν} : records.lookup key = some value ↔ (key, value) ∈ records := by
  induction records with
  | nil => simp
  | cons record rest ih =>
    obtain ⟨other, stored⟩ := record
    obtain ⟨hfresh, hdistinct⟩ := List.nodup_cons.mp hdistinct
    rw [lookup_cons_eq, List.mem_cons, Prod.mk.injEq]
    by_cases hkey : key = other
    · subst hkey
      have hrest : (key, value) ∉ rest := fun hmem =>
        hfresh (List.mem_map.mpr ⟨(key, value), hmem, rfl⟩)
      simp [hrest, eq_comm]
    · simp [hkey, ih hdistinct]

/-- Where each key has one record, keeping some records keeps what is found if it is kept. -/
theorem lookup_filter {records : List (κ × ν)} (hdistinct : (records.map (·.1)).Nodup)
    (keep : ν → Bool) (key : κ) :
    (records.filter fun record => keep record.2).lookup key =
      (records.lookup key).filter keep := by
  induction records with
  | nil => simp
  | cons record rest ih =>
    obtain ⟨hfresh, hdistinct⟩ := List.nodup_cons.mp hdistinct
    have hrest := ih hdistinct
    rw [List.filter_cons, lookup_cons_eq]
    by_cases hkey : key = record.1
    · have hnone : rest.lookup key = none := lookup_eq_none_of_notMem (hkey ▸ hfresh)
      rw [hnone] at hrest
      by_cases hkeep : keep record.2
      · simp [hkeep, hkey, lookup_cons_eq, Option.filter]
      · simp only [hkeep, hkey, ↓reduceIte, Bool.false_eq_true, Option.filter]
        exact hkey ▸ hrest
    · by_cases hkeep : keep record.2
      · simp [hkeep, hkey, lookup_cons_eq, hrest]
      · simp [hkeep, hkey, hrest]

end OpaqueTokens.Cache
