import OpaqueTokens.Identifier
import OpaqueTokens.Time.Instant

/-!
# Codes that have been used

A used code is marked until it expires. A mark lapses at the instant that it names: from then on
it is as if it were not there, whether it has been cleaned up or not.
-/

namespace OpaqueTokens

open Time (Instant)

/-- The marks of used codes, each identifier at most once. -/
@[ext]
structure ReplayCache where
  marks : List (TokenId × Instant) := []
  distinct : (marks.map (·.1)).Nodup := by exact List.nodup_nil

namespace ReplayCache

/-- The cache without marks. -/
def empty : ReplayCache := {}

/-- The end of the mark of an identifier. -/
def find? (cache : ReplayCache) (id : TokenId) : Option Instant :=
  cache.marks.lookup id

/-- The number of marks that are held, lapsed ones included. -/
def size (cache : ReplayCache) : Nat :=
  cache.marks.length

/-- The cache with a mark, in place of an older one of the same identifier. -/
def put (cache : ReplayCache) (id : TokenId) (validUntil : Instant) : ReplayCache where
  marks := (id, validUntil) :: cache.marks.filter fun mark => mark.1 ≠ id
  distinct := by
    refine List.nodup_cons.mpr ⟨by simp, ?_⟩
    exact cache.distinct.sublist (List.filter_sublist.map _)

/-- Marks an identifier and answers whether this is its first use. Where a mark is still valid
the answer is no, and the mark stays as it is. -/
def check (cache : ReplayCache) (id : TokenId) (validUntil now : Instant) :
    ReplayCache × Bool :=
  match cache.find? id with
  | some held => if now < held then (cache, false) else (cache.put id validUntil, true)
  | none => (cache.put id validUntil, true)

/-- Removes the marks that have lapsed, and counts them. -/
def cleanup (cache : ReplayCache) (now : Instant) : ReplayCache × Nat :=
  let kept := cache.marks.filter fun mark => now < mark.2
  (⟨kept, cache.distinct.sublist (List.filter_sublist.map _)⟩, cache.size - kept.length)

end ReplayCache

end OpaqueTokens
