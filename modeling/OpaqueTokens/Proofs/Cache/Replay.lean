import OpaqueTokens.Cache.Replay
import OpaqueTokens.Proofs.Cache.Lookup

/-!
# Marks of used codes

An identifier is marked as long as the clock has not reached the end of its mark. A check refuses
what is marked and marks everything else; a mark of one identifier says nothing about others, and
cleaning up removes only marks that have lapsed, which makes no difference to what is marked later.
-/

namespace OpaqueTokens.ReplayCache

open Time (Instant)

/-- Whether an identifier has a mark that has not lapsed. -/
def isMarked (cache : ReplayCache) (id : TokenId) (now : Instant) : Bool :=
  match cache.find? id with
  | some held => now < held
  | none => false

/-- An identifier is marked while there is a mark that ends later. -/
theorem isMarked_iff {cache : ReplayCache} {id : TokenId} {now : Instant} :
    cache.isMarked id now = true ↔ ∃ held, cache.find? id = some held ∧ now < held := by
  rw [isMarked]
  cases cache.find? id <;> simp

/-- An identifier is unmarked when whatever mark there is has lapsed. -/
theorem isMarked_eq_false_iff {cache : ReplayCache} {id : TokenId} {now : Instant} :
    cache.isMarked id now = false ↔ ∀ held, cache.find? id = some held → held ≤ now := by
  rw [← Bool.not_eq_true, isMarked_iff, not_exists]
  exact forall_congr' fun held => not_and.trans (imp_congr_right fun _ => Int.not_lt)

/-- A check refuses what is marked, without a change, and marks everything else. -/
theorem check_eq (cache : ReplayCache) (id : TokenId) (validUntil now : Instant) :
    cache.check id validUntil now =
      if cache.isMarked id now then (cache, false) else (cache.put id validUntil, true) := by
  rw [check, isMarked]
  cases cache.find? id <;> simp

/-- Putting a mark replaces the one of its identifier and no other. -/
theorem find?_put (cache : ReplayCache) (id other : TokenId) (validUntil : Instant) :
    (cache.put id validUntil).find? other =
      if other = id then some validUntil else cache.find? other := by
  rw [find?, put, Cache.lookup_cons_eq, Cache.lookup_filter_ne]
  by_cases h : other = id <;> simp [h, find?]

/-- Cleaning up keeps the marks that have not lapsed. -/
theorem find?_cleanup (cache : ReplayCache) (id : TokenId) (now : Instant) :
    (cache.cleanup now).1.find? id = (cache.find? id).filter fun held => now < held :=
  Cache.lookup_filter cache.distinct (fun held => now < held) id

/-- Putting a mark marks its identifier until its end, and no other. -/
theorem isMarked_put (cache : ReplayCache) (id other : TokenId) (validUntil now : Instant) :
    (cache.put id validUntil).isMarked other now =
      if other = id then decide (now < validUntil) else cache.isMarked other now := by
  rw [isMarked, isMarked, find?_put]
  by_cases h : other = id <;> simp [h]

/-- From then on cleaning up makes no difference to what is marked. -/
theorem isMarked_cleanup (cache : ReplayCache) (id : TokenId) {now later : Instant}
    (h : now ≤ later) : (cache.cleanup now).1.isMarked id later = cache.isMarked id later := by
  rw [isMarked, isMarked, find?_cleanup]
  cases cache.find? id with
  | none => rfl
  | some held =>
    by_cases hheld : now < held
    · simp [Option.filter, hheld]
    · have hlapsed : ¬later < held := fun hlater => hheld (Int.lt_of_le_of_lt h hlater)
      simp [Option.filter, hheld, hlapsed]

/-- What is unmarked stays so as time passes. -/
theorem isMarked_eq_false_of_le {cache : ReplayCache} {id : TokenId} {now later : Instant}
    (h : cache.isMarked id now = false) (hle : now ≤ later) : cache.isMarked id later = false :=
  isMarked_eq_false_iff.mpr fun held hfind =>
    Int.le_trans (isMarked_eq_false_iff.mp h held hfind) hle

/-- Whenever it happens, cleaning up leads to no mark that was not there. -/
theorem isMarked_cleanup_eq_false {cache : ReplayCache} {id : TokenId} {validUntil : Instant}
    (h : cache.isMarked id validUntil = false) (now : Instant) :
    (cache.cleanup now).1.isMarked id validUntil = false := by
  refine isMarked_eq_false_iff.mpr fun held hfind => ?_
  rw [find?_cleanup] at hfind
  obtain ⟨hfound, -⟩ := Option.filter_eq_some_iff.mp hfind
  exact isMarked_eq_false_iff.mp h held hfound

/-- An identifier has a mark that lasts at least until an instant. -/
def HoldsUntil (cache : ReplayCache) (id : TokenId) (validUntil : Instant) : Prop :=
  ∃ held, cache.find? id = some held ∧ validUntil ≤ held

/-- A mark that lasts long enough counts until its end. -/
theorem HoldsUntil.isMarked {cache : ReplayCache} {id : TokenId} {validUntil now : Instant}
    (h : cache.HoldsUntil id validUntil) (hnow : now < validUntil) :
    cache.isMarked id now = true := by
  obtain ⟨held, hfind, hle⟩ := h
  exact isMarked_iff.mpr ⟨held, hfind, Int.lt_of_lt_of_le hnow hle⟩

/-- A first use is marked until the instant that the check names. -/
theorem holdsUntil_put (cache : ReplayCache) (id : TokenId) (validUntil : Instant) :
    (cache.put id validUntil).HoldsUntil id validUntil :=
  ⟨validUntil, by simp [find?_put], Int.le_refl _⟩

/-- Marking what is not marked keeps every mark that has not lapsed. -/
theorem HoldsUntil.put {cache : ReplayCache} {id other : TokenId} {validUntil now : Instant}
    (h : cache.HoldsUntil id validUntil) (hnow : now < validUntil)
    (hunmarked : cache.isMarked other now = false) (until' : Instant) :
    (cache.put other until').HoldsUntil id validUntil := by
  have hne : id ≠ other := fun heq => by simp [← heq, h.isMarked hnow] at hunmarked
  obtain ⟨held, hfind, hle⟩ := h
  exact ⟨held, by simp [find?_put, hne, hfind], hle⟩

/-- Cleaning up keeps every mark that has not lapsed. -/
theorem HoldsUntil.cleanup {cache : ReplayCache} {id : TokenId} {validUntil now : Instant}
    (h : cache.HoldsUntil id validUntil) (hnow : now < validUntil) :
    (cache.cleanup now).1.HoldsUntil id validUntil := by
  obtain ⟨held, hfind, hle⟩ := h
  have hlt : now < held := Int.lt_of_lt_of_le hnow hle
  exact ⟨held, by simp [find?_cleanup, hfind, hlt], hle⟩

end OpaqueTokens.ReplayCache
