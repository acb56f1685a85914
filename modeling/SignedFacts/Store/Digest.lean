import SignedFacts.Octets.Endian
import SignedFacts.Store.Basic

/-!
# Digests of stores

The digest of a store is a hash of its ids in ascending order behind a marker
and their number.  It depends on the set of ids and on nothing else, so two
sides that compare digests know whether they hold the same records.
-/

namespace SignedFacts

/-- The hash of a set of ids. -/
structure Digest where
  /-- The octets. -/
  octets : Vector UInt8 32
  deriving DecidableEq

namespace Digest

/-- The marker in front of the ids. -/
def marker : List UInt8 := Utf8.encode "truth-kernel/store-digest/v1"

/-- The ids in ascending order, each once. -/
def distinct (ids : List RecordId) : List RecordId :=
  (Sorted.collect .last (ids.map fun id => (id, ()))).map (·.1)

/-- The octets that are hashed for a set of ids. -/
def preimage (ids : List RecordId) : List UInt8 :=
  let ids := distinct ids
  marker ++ Octets.toBigEndian 8 ids.length ++ ids.flatMap (·.octets.toList)

/-- The digest of a set of ids. -/
def ofIds (ids : List RecordId) : Digest := ⟨Blake3.hash (preimage ids)⟩

/-- The hexadecimal text of a digest. -/
def toHex (digest : Digest) : String := Hex.encode digest.octets.toList

end Digest

/-- The digest of what a store holds. -/
def Store.digest (store : Store) : Digest := .ofIds store.ids

/-- What a comparison of digests says. -/
inductive Convergence where
  /-- Both sides hold the same ids. -/
  | converged
  /-- They do not. -/
  | diverged (here there : Digest)
  deriving DecidableEq

/-- Compares a store with the digest of another side. -/
def Store.compareDigest (store : Store) (there : Digest) : Convergence :=
  if store.digest = there then .converged else .diverged store.digest there

end SignedFacts
