import FieldRules.Engine.Cache
import FieldRules.Proofs.Table
import Mathlib.Algebra.Group.Nat.Defs
import Mathlib.Data.List.Perm.Basic

/-!
# Tables of entries in buckets

Every entry of a cache stands in the bucket that the hash of its type selects,
and no type has two entries.  So a type is found exactly if it has an entry,
whatever the number of buckets, and spreading the entries over more buckets
changes nothing but their places.

The number of buckets is the least one, out of those that come about by
doubling, that leaves half of the buckets free.
-/

namespace FieldRules.Cache

variable {α : Type} {hash : RecordType → Nat} {cache : Cache α} {type : RecordType} {value : α}
  {entry : RecordType × α}

/-! ## Entries in their buckets -/

/-- Entries stand in the buckets of their types, one for each type, and are
counted. -/
structure Placed (hash : RecordType → Nat) (cache : Cache α) : Prop where
  inBucket : ∀ index bucket, cache.buckets[index]? = some bucket → ∀ entry ∈ bucket,
    bucketOf hash cache.buckets.length entry.1 = index
  distinct : (cache.entries.map Prod.fst).Nodup
  counted : cache.size = cache.entries.length

theorem mem_entries_iff : entry ∈ cache.entries ↔
    ∃ (index : Nat) (bucket : List (RecordType × α)),
      cache.buckets[index]? = some bucket ∧ entry ∈ bucket := by
  rw [entries, List.mem_flatten]
  constructor
  · rintro ⟨bucket, inBuckets, mem⟩
    obtain ⟨index, at_index⟩ := List.mem_iff_getElem?.mp inBuckets
    exact ⟨index, bucket, at_index, mem⟩
  · rintro ⟨index, bucket, at_index, mem⟩
    exact ⟨bucket, List.mem_of_getElem? at_index, mem⟩

/-- A type is found exactly if it has an entry. -/
theorem Placed.find?_eq_some_iff (placed : cache.Placed hash) :
    cache.find? hash type = some value ↔ (type, value) ∈ cache.entries := by
  rw [find?, List.getD_eq_getElem?_getD, mem_entries_iff]
  constructor
  · intro found
    cases at_index : cache.buckets[bucketOf hash cache.buckets.length type]? with
    | none =>
        rw [at_index] at found
        cases found
    | some bucket =>
        rw [at_index, Option.getD_some, List.lookup_eq_some_iff] at found
        obtain ⟨before, after, rfl, -⟩ := found
        exact ⟨_, _, at_index, by simp⟩
  · rintro ⟨index, bucket, at_index, mem⟩
    obtain rfl := placed.inBucket index bucket at_index _ mem
    have inEntries : bucket.Sublist cache.entries :=
      List.sublist_flatten_of_mem (List.mem_of_getElem? at_index)
    rw [at_index, Option.getD_some]
    exact (lookup_eq_some_iff_mem (placed.distinct.sublist (inEntries.map Prod.fst))).mpr mem

/-- A type is missing exactly if no entry is its own. -/
theorem Placed.find?_eq_none_iff (placed : cache.Placed hash) :
    cache.find? hash type = none ↔ type ∉ cache.entries.map Prod.fst := by
  rw [Option.eq_none_iff_forall_ne_some]
  constructor
  · intro missing mem
    obtain ⟨⟨type, value⟩, inEntries, rfl⟩ := List.mem_map.mp mem
    exact missing value (placed.find?_eq_some_iff.mpr inEntries)
  · intro missing value found
    exact missing (List.mem_map_of_mem (placed.find?_eq_some_iff.mp found))

/-! ## Spreading entries -/

theorem placed_withBuckets (count : Nat) : (withBuckets count : Cache α).Placed hash where
  inBucket index bucket at_index := by
    obtain rfl := (List.mem_replicate.mp (List.mem_of_getElem? at_index)).2
    simp
  distinct := by simp [entries, withBuckets]
  counted := by simp [entries, withBuckets]

@[simp]
theorem length_buckets_push (entry : RecordType × α) :
    (cache.push hash entry).buckets.length = cache.buckets.length := by
  simp [push]

/-- Nothing is found in a cache without entries. -/
theorem find?_withBuckets (count : Nat) (type : RecordType) :
    (withBuckets count : Cache α).find? hash type = none :=
  (placed_withBuckets count).find?_eq_none_iff.mpr (by simp [entries, withBuckets])

/-- One more entry is among the entries, wherever it went. -/
theorem entries_push_perm (some : 0 < cache.buckets.length) (entry : RecordType × α) :
    (cache.push hash entry).entries.Perm (cache.entries ++ [entry]) := by
  have inside : bucketOf hash cache.buckets.length entry.1 < cache.buckets.length :=
    Nat.mod_lt _ some
  generalize place : bucketOf hash cache.buckets.length entry.1 = index at inside
  have split : cache.buckets = cache.buckets.take index ++
      cache.buckets[index] :: cache.buckets.drop (index + 1) := by
    simp
  have pushed : (cache.push hash entry).entries = (cache.buckets.take index).flatten ++
      (cache.buckets[index] ++ [entry] ++ (cache.buckets.drop (index + 1)).flatten) := by
    simp [entries, push, place, List.modify_eq_take_cons_drop inside]
  have old : cache.entries = (cache.buckets.take index).flatten ++
      (cache.buckets[index] ++ (cache.buckets.drop (index + 1)).flatten) := by
    rw [entries]
    conv_lhs => rw [split]
    rw [List.flatten_append, List.flatten_cons]
  rw [pushed, old, List.append_assoc, List.append_assoc, List.append_assoc]
  exact (List.perm_append_comm.append_left _).append_left _

/-- Putting an entry of a new type into its bucket. -/
theorem Placed.push (placed : cache.Placed hash) (some : 0 < cache.buckets.length)
    (fresh : entry.1 ∉ cache.entries.map Prod.fst) : (cache.push hash entry).Placed hash where
  inBucket index bucket at_index other mem := by
    rw [length_buckets_push]
    rw [Cache.push, List.getElem?_modify] at at_index
    obtain ⟨old, old_at, rfl⟩ := Option.map_eq_some_iff.mp at_index
    split_ifs at mem with here
    · rcases List.mem_append.mp mem with inOld | new
      · exact placed.inBucket index old old_at other inOld
      · rw [List.mem_singleton.mp new, here]
    · exact placed.inBucket index old old_at other mem
  distinct := by
    rw [((entries_push_perm some entry).map Prod.fst).nodup_iff, List.map_append,
      List.nodup_append]
    refine ⟨placed.distinct, List.nodup_singleton _, fun type mem other last => ?_⟩
    obtain rfl : other = entry.1 := by simpa using last
    rintro rfl
    exact fresh mem
  counted := by
    rw [(entries_push_perm some entry).length_eq, List.length_append, List.length_singleton,
      ← placed.counted]
    rfl

/-- Entries of different new types that are put in one after the other. -/
theorem Placed.pushAll {entries : List (RecordType × α)} (placed : cache.Placed hash)
    (some : 0 < cache.buckets.length)
    (distinct : ((cache.entries ++ entries).map Prod.fst).Nodup) :
    (entries.foldl (Cache.push hash) cache).Placed hash ∧
      (entries.foldl (Cache.push hash) cache).buckets.length = cache.buckets.length ∧
      (entries.foldl (Cache.push hash) cache).entries.Perm (cache.entries ++ entries) := by
  induction entries generalizing cache with
  | nil => exact ⟨placed, rfl, by simp⟩
  | cons entry entries ih =>
      have perm : (cache.push hash entry).entries.Perm (cache.entries ++ [entry]) :=
        entries_push_perm some entry
      have all : ((cache.push hash entry).entries ++ entries).Perm
          (cache.entries ++ entry :: entries) := by
        simpa using perm.append_right entries
      have fresh : entry.1 ∉ cache.entries.map Prod.fst := by
        rw [List.map_append, List.map_cons, List.nodup_middle, List.nodup_cons] at distinct
        exact fun mem => distinct.1 (List.mem_append_left _ mem)
      obtain ⟨after, count, pushed⟩ := ih (placed.push some fresh) (by simpa using some)
        ((all.map Prod.fst).nodup_iff.mpr distinct)
      exact ⟨after, count.trans (length_buckets_push entry), pushed.trans all⟩

/-! ## The number of buckets -/

/-- The number of buckets is the least that comes about by doubling and leaves
half of the buckets free. -/
def Roomy (cache : Cache α) : Prop :=
  ∃ doublings, cache.buckets.length = initialBuckets * 2 ^ doublings ∧
    2 * cache.size ≤ initialBuckets * 2 ^ doublings ∧
    ∀ fewer, 2 * cache.size ≤ initialBuckets * 2 ^ fewer → doublings ≤ fewer

/-- One more entry makes the number of buckets grow when it has to. -/
theorem Roomy.grownCount (roomy : cache.Roomy) :
    ∃ doublings, cache.grownCount = initialBuckets * 2 ^ doublings ∧
      2 * (cache.size + 1) ≤ initialBuckets * 2 ^ doublings ∧
      ∀ fewer, 2 * (cache.size + 1) ≤ initialBuckets * 2 ^ fewer → doublings ≤ fewer := by
  obtain ⟨doublings, count, fits, least⟩ := roomy
  rw [Cache.grownCount, count]
  split_ifs with full
  · have next : initialBuckets * 2 ^ doublings * 2 = initialBuckets * 2 ^ (doublings + 1) := by
      rw [Nat.pow_succ, Nat.mul_assoc]
    have atLeast : initialBuckets ≤ initialBuckets * 2 ^ doublings :=
      Nat.le_mul_of_pos_right _ (Nat.two_pow_pos _)
    have eight : initialBuckets = 8 := rfl
    refine ⟨doublings + 1, next, by omega, fun fewer enough => ?_⟩
    by_contra tooFew
    have small : 2 ^ fewer ≤ 2 ^ doublings :=
      Nat.pow_le_pow_right (by decide) (by omega)
    have := Nat.mul_le_mul_left initialBuckets small
    omega
  · exact ⟨doublings, rfl, by omega, fun fewer enough => least fewer (by omega)⟩

/-! ## Caches -/

/-- Entries are placed, and there is room for them. -/
structure WellFormed (hash : RecordType → Nat) (cache : Cache α) : Prop where
  placed : cache.Placed hash
  roomy : cache.Roomy

theorem WellFormed.empty : (Cache.empty : Cache α).WellFormed hash where
  placed := placed_withBuckets _
  roomy := ⟨0, by simp [Cache.empty, withBuckets], by simp [Cache.empty, withBuckets],
    fun fewer _ => Nat.zero_le fewer⟩

/-- An entry of a new type joins the others. -/
theorem WellFormed.insert (wellFormed : cache.WellFormed hash)
    (fresh : cache.find? hash type = none) (value : α) :
    (cache.insert hash type value).WellFormed hash ∧
      (cache.insert hash type value).entries.Perm (cache.entries ++ [(type, value)]) := by
  obtain ⟨placed, roomy⟩ := wellFormed
  obtain ⟨doublings, count, fits, least⟩ := roomy.grownCount
  have positive : 0 < cache.grownCount := by
    rw [count]
    exact Nat.mul_pos (by decide) (Nat.two_pow_pos _)
  have start : (withBuckets cache.grownCount : Cache α).entries = [] := by
    simp [entries, withBuckets]
  have length : (withBuckets cache.grownCount : Cache α).buckets.length = cache.grownCount := by
    simp [withBuckets]
  have distinct : ((cache.entries ++ [(type, value)]).map Prod.fst).Nodup := by
    rw [List.map_append, List.nodup_append]
    refine ⟨placed.distinct, List.nodup_singleton _, fun other mem last isLast => ?_⟩
    obtain rfl : last = type := by simpa using isLast
    rintro rfl
    exact placed.find?_eq_none_iff.mp fresh mem
  have spread : (withBuckets cache.grownCount : Cache α).Placed hash := placed_withBuckets _
  have all := spread.pushAll (length.symm ▸ positive) (by rwa [start, List.nil_append])
  rw [List.foldl_append, List.foldl_cons, List.foldl_nil, start, List.nil_append, length] at all
  obtain ⟨inserted, buckets, perm⟩ := all
  refine ⟨⟨inserted, doublings, buckets.trans count, ?_⟩, perm⟩
  have size : (cache.insert hash type value).size = cache.size + 1 := by
    rw [Cache.insert, inserted.counted, perm.length_eq, List.length_append, placed.counted]
    rfl
  rw [size]
  exact ⟨fits, least⟩

/-- Inserting an entry of a new type changes what is found for that type only. -/
theorem WellFormed.find?_insert (wellFormed : cache.WellFormed hash)
    (fresh : cache.find? hash type = none) (value : α) (other : RecordType) :
    (cache.insert hash type value).find? hash other =
      if other = type then some value else cache.find? hash other := by
  obtain ⟨inserted, perm⟩ := wellFormed.insert fresh value
  ext found
  rw [inserted.placed.find?_eq_some_iff, perm.mem_iff, List.mem_append, List.mem_singleton,
    Prod.mk.injEq]
  split_ifs with same
  · subst same
    have missing := wellFormed.placed.find?_eq_none_iff.mp fresh
    constructor
    · rintro (mem | ⟨-, rfl⟩)
      · exact absurd (List.mem_map_of_mem mem) missing
      · rfl
    · rintro ⟨⟩
      exact .inr ⟨rfl, rfl⟩
  · rw [wellFormed.placed.find?_eq_some_iff]
    simp [same]

/-! ## Compiling on demand -/

variable {ε : Type} {compile : Logged ε α}

/-- What is there is returned without compiling. -/
theorem getOrCompile_of_find?_eq_some (found : cache.find? hash type = some value)
    (compile : Logged ε α) : cache.getOrCompile hash type compile = (pure value, cache) := by
  simp only [getOrCompile, found]

/-- A compilation that fails leaves the cache as it was. -/
theorem getOrCompile_of_outcome_eq_error {error : ε} (failed : compile.outcome = .error error) :
    (cache.getOrCompile hash type compile).2 = cache := by
  rw [getOrCompile]
  cases cache.find? hash type <;> simp only [failed]

/-- The cache afterwards is well-formed; a type is found if it was found before, or
if it has just been compiled. -/
theorem WellFormed.getOrCompile (wellFormed : cache.WellFormed hash) (type : RecordType)
    (compile : Logged ε α) :
    (cache.getOrCompile hash type compile).2.WellFormed hash ∧
      ∀ other, (cache.getOrCompile hash type compile).2.find? hash other =
        (cache.find? hash other).or
          (if type = other then compile.outcome.toOption else none) := by
  cases found : cache.find? hash type with
  | some value =>
      rw [getOrCompile_of_find?_eq_some found]
      refine ⟨wellFormed, fun other => ?_⟩
      split_ifs with same
      · simp [← same, found]
      · exact (Option.or_none).symm
  | none =>
      cases outcome : compile.outcome with
      | error error =>
          rw [getOrCompile_of_outcome_eq_error outcome]
          refine ⟨wellFormed, fun other => ?_⟩
          simp [Except.toOption]
      | ok value =>
          have inserted : (cache.getOrCompile hash type compile).2 =
              cache.insert hash type value := by
            simp only [Cache.getOrCompile, found, outcome]
          rw [inserted]
          refine ⟨(wellFormed.insert found value).1, fun other => ?_⟩
          rw [wellFormed.find?_insert found value other]
          by_cases same : other = type
          · subst same
            simp [found, Except.toOption]
          · simp [same, Ne.symm same]

/-- What has been compiled, or found in its place, is found afterwards. -/
theorem WellFormed.find?_getOrCompile (wellFormed : cache.WellFormed hash) {compile : Logged ε α}
    (compiled : (cache.getOrCompile hash type compile).1.outcome = .ok value) :
    (cache.getOrCompile hash type compile).2.find? hash type = some value := by
  cases found : cache.find? hash type with
  | some old =>
      rw [getOrCompile_of_find?_eq_some found] at compiled ⊢
      cases compiled
      exact found
  | none =>
      rw [(wellFormed.getOrCompile type compile).2, found, Option.none_or, if_pos rfl]
      cases outcome : compile.outcome with
      | error error =>
          simp only [Cache.getOrCompile, found, outcome] at compiled
          cases compiled
      | ok fresh =>
          simp only [Cache.getOrCompile, found, outcome, Logged.outcome_bind,
            Logged.outcome_report, Logged.outcome_pure] at compiled
          cases compiled
          rfl

end FieldRules.Cache
