import OpaqueTokens.Cache.Replay
import OpaqueTokens.Cache.Revocation
import OpaqueTokens.Grant.Error

/-!
# Where marks and revocations are kept

The validators work with any store of marks and revocations, which may fail. The store in memory
never fails; it judges validity by the wall clock and not by the time that a caller asks about.
-/

namespace OpaqueTokens

open Time (Deadline Instant)

/-- What the validators need of a store whose state is of the given type. -/
structure Stores (σ : Type) where
  /-- Marks a code and answers whether this is its first use. -/
  checkReplay : σ → (id : TokenId) → (validUntil clock : Instant) → σ × Except GrantError Bool
  /-- Whether a lineage is revoked. -/
  isRevoked : σ → (id : TokenId) → (clock : Instant) → Except GrantError Bool
  /-- Revokes a lineage until a deadline. -/
  revoke : σ → (id : TokenId) → (deadline : Deadline) → σ × Except GrantError Unit

/-- The caches in memory. -/
@[ext]
structure Caches where
  replay : ReplayCache := .empty
  revocation : RevocationCache := .empty

/-- The store in memory. -/
def Stores.inMemory : Stores Caches where
  checkReplay caches id validUntil clock :=
    let (replay, first) := caches.replay.check id validUntil clock
    ({ caches with replay }, .ok first)
  isRevoked caches id clock := .ok (caches.revocation.isRevoked id clock)
  revoke caches id deadline :=
    ({ caches with revocation := caches.revocation.revokeUntil id deadline }, .ok ())

end OpaqueTokens
