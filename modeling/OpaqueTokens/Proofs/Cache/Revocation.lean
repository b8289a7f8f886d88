import OpaqueTokens.Cache.Revocation
import OpaqueTokens.Proofs.Cache.Lookup

/-!
# Records of revoked lineages

A lineage is revoked as long as the clock has not reached the deadline of its record. Revoking a
lineage moves its deadline to the later of two and touches no other; cleaning up removes only
records that have lapsed. So a record counts until its deadline whatever happens in between.
-/

namespace OpaqueTokens

open Time (Deadline Instant)

namespace Time.Deadline

theorem le_max_left (a b : Deadline) : a ≤ max a b := by
  change a ≤ if a ≤ b then b else a
  split
  · assumption
  · exact Int.le_refl _

theorem le_max_right (a b : Deadline) : b ≤ max a b := by
  change b ≤ if a ≤ b then b else a
  split
  · exact Int.le_refl _
  · rename_i h
    exact Int.le_of_lt (Int.not_le.mp h)

theorem lt_max_iff {a b c : Deadline} : c < max a b ↔ c < a ∨ c < b := by
  change (c < if a ≤ b then b else a) ↔ _
  split <;> simp only [lt_def, le_def] at * <;> omega

end Time.Deadline

namespace RevocationCache

/-- A lineage is revoked while there is a record that ends later. -/
theorem isRevoked_iff {cache : RevocationCache} {id : TokenId} {now : Instant} :
    cache.isRevoked id now = true ↔ ∃ held, cache.find? id = some held ∧ now.deadline < held := by
  rw [isRevoked]
  cases cache.find? id <;> simp

/-- A lineage is not revoked when whatever record there is has lapsed. -/
theorem isRevoked_eq_false_iff {cache : RevocationCache} {id : TokenId} {now : Instant} :
    cache.isRevoked id now = false ↔ ∀ held, cache.find? id = some held → held ≤ now.deadline := by
  rw [← Bool.not_eq_true, isRevoked_iff, not_exists]
  exact forall_congr' fun held => not_and.trans (imp_congr_right fun _ => Int.not_lt)

/-- Putting a record replaces the one of its lineage and no other. -/
theorem find?_put (cache : RevocationCache) (id other : TokenId) (deadline : Deadline) :
    (cache.put id deadline).find? other =
      if other = id then some deadline else cache.find? other := by
  rw [find?, put, Cache.lookup_cons_eq, Cache.lookup_filter_ne]
  by_cases h : other = id <;> simp [h, find?]

/-- The later of a deadline and the one that is recorded, if any. -/
def extended (held : Option Deadline) (deadline : Deadline) : Deadline :=
  match held with
  | some held => max held deadline
  | none => deadline

theorem le_extended (held : Option Deadline) (deadline : Deadline) :
    deadline ≤ extended held deadline := by
  cases held with
  | none => exact Int.le_refl _
  | some held => exact Deadline.le_max_right held deadline

/-- Revoking a lineage extends its record and no other. -/
theorem find?_revokeUntil (cache : RevocationCache) (id other : TokenId) (deadline : Deadline) :
    (cache.revokeUntil id deadline).find? other =
      if other = id then some (extended (cache.find? id) deadline) else cache.find? other := by
  rw [revokeUntil]
  cases cache.find? id <;> exact find?_put cache id other _

/-- Cleaning up keeps the records that have not lapsed. -/
theorem find?_cleanup (cache : RevocationCache) (id : TokenId) (now : Instant) :
    (cache.cleanup now).1.find? id = (cache.find? id).filter fun held => now.deadline < held :=
  Cache.lookup_filter cache.distinct (fun held => now.deadline < held) id

/-- Revoking a lineage revokes it until the deadline besides, and no other. -/
theorem isRevoked_revokeUntil (cache : RevocationCache) (id other : TokenId) (deadline : Deadline)
    (now : Instant) :
    (cache.revokeUntil id deadline).isRevoked other now =
      if other = id then cache.isRevoked id now || decide (now.deadline < deadline)
      else cache.isRevoked other now := by
  rw [isRevoked, isRevoked, isRevoked, find?_revokeUntil]
  by_cases h : other = id
  · cases cache.find? id <;> simp [h, extended, Deadline.lt_max_iff]
  · simp [h]

/-- From then on cleaning up makes no difference to what is revoked. -/
theorem isRevoked_cleanup (cache : RevocationCache) (id : TokenId) {now later : Instant}
    (h : now ≤ later) : (cache.cleanup now).1.isRevoked id later = cache.isRevoked id later := by
  rw [isRevoked, isRevoked, find?_cleanup]
  cases cache.find? id with
  | none => rfl
  | some held =>
    by_cases hheld : now.deadline < held
    · simp [Option.filter, hheld]
    · have hlapsed : ¬later.deadline < held := fun hlater =>
        hheld (Int.lt_of_le_of_lt h hlater)
      simp [Option.filter, hheld, hlapsed]

/-- A lineage has a record that lasts at least until a deadline. -/
def HoldsUntil (cache : RevocationCache) (id : TokenId) (deadline : Deadline) : Prop :=
  ∃ held, cache.find? id = some held ∧ deadline ≤ held

/-- A record that lasts long enough counts until its deadline. -/
theorem HoldsUntil.isRevoked {cache : RevocationCache} {id : TokenId} {deadline : Deadline}
    {now : Instant} (h : cache.HoldsUntil id deadline) (hnow : now.deadline < deadline) :
    cache.isRevoked id now = true := by
  obtain ⟨held, hfind, hle⟩ := h
  exact isRevoked_iff.mpr ⟨held, hfind, Int.lt_of_lt_of_le hnow hle⟩

/-- A revoked lineage has a record that lasts until the deadline of the revocation. -/
theorem holdsUntil_revokeUntil (cache : RevocationCache) (id : TokenId) (deadline : Deadline) :
    (cache.revokeUntil id deadline).HoldsUntil id deadline :=
  ⟨extended (cache.find? id) deadline, by simp [find?_revokeUntil], le_extended _ _⟩

/-- Revoking any lineage shortens no record. -/
theorem HoldsUntil.revokeUntil {cache : RevocationCache} {id : TokenId} {deadline : Deadline}
    (h : cache.HoldsUntil id deadline) (other : TokenId) (until' : Deadline) :
    (cache.revokeUntil other until').HoldsUntil id deadline := by
  obtain ⟨held, hfind, hle⟩ := h
  by_cases hid : id = other
  · subst hid
    refine ⟨max held until', by simp [find?_revokeUntil, hfind, extended], ?_⟩
    exact Int.le_trans hle (Deadline.le_max_left held until')
  · exact ⟨held, by simp [find?_revokeUntil, hid, hfind], hle⟩

/-- Cleaning up keeps every record that has not lapsed. -/
theorem HoldsUntil.cleanup {cache : RevocationCache} {id : TokenId} {deadline : Deadline}
    {now : Instant} (h : cache.HoldsUntil id deadline) (hnow : now.deadline < deadline) :
    (cache.cleanup now).1.HoldsUntil id deadline := by
  obtain ⟨held, hfind, hle⟩ := h
  have hlt : now.deadline < held := Int.lt_of_lt_of_le hnow hle
  exact ⟨held, by simp [find?_cleanup, hfind, hlt], hle⟩

end RevocationCache

end OpaqueTokens
