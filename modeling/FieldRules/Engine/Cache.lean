import FieldRules.Log.Logged

/-!
# Caches

A cache keeps what was compiled for record types.  Its entries are spread over
buckets by a hash of the type; whenever more than half as many entries as
buckets would be there, the number of buckets is doubled and all entries are
spread again.  Entries are never changed or removed.
-/

namespace FieldRules

/-- Entries for record types, in buckets. -/
structure Cache (α : Type) where
  buckets : List (List (RecordType × α))
  size : Nat

namespace Cache

variable {α ε : Type}

/-- The number of buckets of an empty cache. -/
def initialBuckets : Nat := 8

/-- A cache with a number of empty buckets. -/
def withBuckets (count : Nat) : Cache α :=
  ⟨List.replicate count [], 0⟩

/-- The empty cache. -/
def empty : Cache α :=
  withBuckets initialBuckets

/-- All entries, bucket by bucket. -/
def entries (cache : Cache α) : List (RecordType × α) :=
  cache.buckets.flatten

/-- The bucket of a record type among a number of buckets. -/
def bucketOf (hash : RecordType → Nat) (count : Nat) (type : RecordType) : Nat :=
  hash type % count

/-- The entry of a record type. -/
def find? (hash : RecordType → Nat) (cache : Cache α) (type : RecordType) : Option α :=
  (cache.buckets.getD (bucketOf hash cache.buckets.length type) []).lookup type

/-- Whether a record type has an entry. -/
def contains (hash : RecordType → Nat) (cache : Cache α) (type : RecordType) : Bool :=
  (cache.find? hash type).isSome

/-- Put an entry behind the others of its bucket. -/
def push (hash : RecordType → Nat) (cache : Cache α) (entry : RecordType × α) : Cache α where
  buckets :=
    cache.buckets.modify (bucketOf hash cache.buckets.length entry.1) (· ++ [entry])
  size := cache.size + 1

/-- The number of buckets when one more entry comes in. -/
def grownCount (cache : Cache α) : Nat :=
  if (cache.size + 1) * 2 > cache.buckets.length then cache.buckets.length * 2
  else cache.buckets.length

/-- The cache with one more entry. -/
def insert (hash : RecordType → Nat) (cache : Cache α) (type : RecordType) (value : α) :
    Cache α :=
  (cache.entries.foldl (push hash) (withBuckets cache.grownCount)).push hash (type, value)

/-- The entry of a record type, which is compiled if it is missing.  When that
fails, the cache stays as it was. -/
def getOrCompile (hash : RecordType → Nat) (cache : Cache α) (type : RecordType)
    (compile : Logged ε α) : Logged ε α × Cache α :=
  match cache.find? hash type with
  | some value => (pure value, cache)
  | none =>
      match compile.outcome with
      | .error _ => (compile, cache)
      | .ok value =>
          let next := cache.insert hash type value
          (do
            let value ← compile
            .report (.programPublished type next.size next.buckets.length)
            pure value, next)

end Cache

end FieldRules
