import OpaqueTokens.Identifier
import OpaqueTokens.Time.Instant

/-!
# Lineages that have been revoked

A lineage is revoked until a deadline after which none of its tokens can be valid. Of several
revocations of one lineage the longest counts.
-/

namespace OpaqueTokens

open Time (Deadline Instant)

/-- The ends of revocations, each lineage at most once. -/
@[ext]
structure RevocationCache where
  records : List (TokenId × Deadline) := []
  distinct : (records.map (·.1)).Nodup := by exact List.nodup_nil

namespace RevocationCache

/-- The cache without records. -/
def empty : RevocationCache := {}

/-- The end of the revocation of a lineage. -/
def find? (cache : RevocationCache) (id : TokenId) : Option Deadline :=
  cache.records.lookup id

/-- The number of records that are held, lapsed ones included. -/
def size (cache : RevocationCache) : Nat :=
  cache.records.length

/-- Whether a lineage is revoked at an instant. -/
def isRevoked (cache : RevocationCache) (id : TokenId) (now : Instant) : Bool :=
  match cache.find? id with
  | some held => now.deadline < held
  | none => false

/-- The cache with a record in place of an older one of the same lineage. -/
def put (cache : RevocationCache) (id : TokenId) (deadline : Deadline) : RevocationCache where
  records := (id, deadline) :: cache.records.filter fun record => record.1 ≠ id
  distinct := by
    refine List.nodup_cons.mpr ⟨by simp, ?_⟩
    exact cache.distinct.sublist (List.filter_sublist.map _)

/-- Revokes a lineage until a deadline, or until the later one that is recorded. -/
def revokeUntil (cache : RevocationCache) (id : TokenId) (deadline : Deadline) :
    RevocationCache :=
  match cache.find? id with
  | some held => cache.put id (max held deadline)
  | none => cache.put id deadline

/-- Removes the records that have lapsed, and counts them. -/
def cleanup (cache : RevocationCache) (now : Instant) : RevocationCache × Nat :=
  let kept := cache.records.filter fun record => now.deadline < record.2
  (⟨kept, cache.distinct.sublist (List.filter_sublist.map _)⟩, cache.size - kept.length)

end RevocationCache

end OpaqueTokens
