import FieldRules.Engine.Basic
import FieldRules.Proofs.Engine.Cache
import Mathlib.Data.Set.Card

/-!
# Requests to a cache

A cache serves requests one after the other, while record types change what they
describe and predicates are registered in between.  What a type is found to have
is then the value of the first compilation for it that succeeded, whatever
happened before or afterwards.

The main statement goes through the requests once: each of them keeps the cache
well-formed and adds at most the value that it compiled.
-/

namespace FieldRules.Cache

variable {ε α : Type} {hash : RecordType → Nat}

/-! ## Serving requests -/

/-- What is asked of a cache, and what changes around it.  A compilation may look
at the environment of its time, and it may fail; a compilation that breaks off
fails as well. -/
inductive Request (ε α : Type) where
  | getOrCompile (type : RecordType) (compile : Environment → Logged ε α)
  | get (type : RecordType)
  | length
  /-- A record type describes itself anew. -/
  | describe (type : RecordType) (description : Description)
  | register (name : String) (predicate : Predicate) (force : Bool)

/-- The answer to a request. -/
inductive Answer (ε α : Type) where
  | compiled (result : Logged ε α)
  | found (value : Option α)
  | counted (size : Nat)
  | changed

/-- A cache and the environment in which it compiles. -/
structure Store (α : Type) where
  environment : Environment
  cache : Cache α

/-- The environment after a request. -/
def Request.environment : Request ε α → Environment → Environment
  | .describe type description, environment =>
      { environment with catalog := environment.catalog.set type description }
  | .register name predicate force, environment =>
      match environment.registry.register name predicate force with
      | .ok registry => { environment with registry }
      | .error _ => environment
  | _, environment => environment

namespace Store

/-- Answer a request.  `get` and `length` only look at the cache. -/
def serve (hash : RecordType → Nat) (store : Store α) (request : Request ε α) :
    Answer ε α × Store α :=
  let environment := request.environment store.environment
  match request with
  | .getOrCompile type compile =>
      let (result, cache) := store.cache.getOrCompile hash type (compile store.environment)
      (.compiled result, ⟨environment, cache⟩)
  | .get type => (.found (store.cache.find? hash type), ⟨environment, store.cache⟩)
  | .length => (.counted store.cache.size, ⟨environment, store.cache⟩)
  | _ => (.changed, ⟨environment, store.cache⟩)

/-- The store after a sequence of requests. -/
def after (hash : RecordType → Nat) (store : Store α) (requests : List (Request ε α)) : Store α :=
  requests.foldl (fun store request => (store.serve hash request).2) store

end Store

/-! ## What was compiled -/

/-- What a request compiles for a type, if it does and succeeds. -/
def Request.compiled? (environment : Environment) (type : RecordType) : Request ε α → Option α
  | .getOrCompile asked compile =>
      if asked = type then (compile environment).outcome.toOption else none
  | _ => none

/-- The value of the first compilation for a type that succeeds. -/
def firstCompiled (type : RecordType) : Environment → List (Request ε α) → Option α
  | _, [] => none
  | environment, request :: requests =>
      (request.compiled? environment type).or
        (firstCompiled type (request.environment environment) requests)

/-- A request keeps the cache well-formed, and finds what it compiled unless
something was found before. -/
theorem WellFormed.serve {store : Store α} (wellFormed : store.cache.WellFormed hash)
    (request : Request ε α) :
    (store.serve hash request).2.cache.WellFormed hash ∧
      (store.serve hash request).2.environment = request.environment store.environment ∧
      ∀ type, (store.serve hash request).2.cache.find? hash type =
        (store.cache.find? hash type).or (request.compiled? store.environment type) := by
  cases request with
  | getOrCompile asked compile =>
      obtain ⟨kept, finds⟩ := wellFormed.getOrCompile asked (compile store.environment)
      exact ⟨kept, rfl, finds⟩
  | _ => exact ⟨wellFormed, rfl, fun type => Option.or_none.symm⟩

/-- A sequence of requests keeps the cache well-formed, and finds for each type
what it found before or else the first that was compiled. -/
theorem WellFormed.after {store : Store α} (wellFormed : store.cache.WellFormed hash)
    (requests : List (Request ε α)) :
    (store.after hash requests).cache.WellFormed hash ∧
      ∀ type, (store.after hash requests).cache.find? hash type =
        (store.cache.find? hash type).or (firstCompiled type store.environment requests) := by
  induction requests generalizing store with
  | nil => exact ⟨wellFormed, fun type => Option.or_none.symm⟩
  | cons request requests ih =>
      obtain ⟨kept, environment, finds⟩ := wellFormed.serve request
      obtain ⟨keptAll, findsAll⟩ := ih kept
      refine ⟨keptAll, fun type => (findsAll type).trans ?_⟩
      rw [finds, environment, Option.or_assoc]
      rfl

/-- The entries are counted by their types. -/
theorem Placed.size_eq_ncard {cache : Cache α} (placed : cache.Placed hash) :
    cache.size = {type | (cache.find? hash type).isSome}.ncard := by
  have types : {type | (cache.find? hash type).isSome} =
      ((cache.entries.map Prod.fst).toFinset : Set RecordType) := by
    ext type
    rw [Set.mem_ofPred_eq, List.coe_toFinset, Set.mem_ofPred_eq, ← not_iff_not,
      ← placed.find?_eq_none_iff, Option.not_isSome_iff_eq_none]
  rw [types, Set.ncard_coe_finset, List.toFinset_card_of_nodup placed.distinct, List.length_map,
    placed.counted]

variable [RegexLibrary]

/-- What an engine has compiled once is its program of the type after any further
requests to its cache. -/
theorem engine_keeps_program {engine : Engine} {environment : Environment} {type : RecordType}
    {program : Program} (wellFormed : engine.cache.WellFormed RecordType.hash)
    (compiled : (engine.compile environment type).1.outcome = .ok program)
    (later : List (Request CompileError Program)) :
    let store := Store.after RecordType.hash ⟨environment, (engine.compile environment type).2.cache⟩
      later
    Engine.compile store.environment ⟨engine.tag, store.cache⟩ type =
      (pure program, ⟨engine.tag, store.cache⟩) := by
  intro store
  let started : Store Program := ⟨environment, (engine.compile environment type).2.cache⟩
  have kept : started.cache.WellFormed RecordType.hash :=
    (wellFormed.getOrCompile type (Program.compile environment engine.tag type)).1
  have published : started.cache.find? RecordType.hash type = some program :=
    wellFormed.find?_getOrCompile compiled
  have found : store.cache.find? RecordType.hash type = some program := by
    rw [(kept.after later).2, published, Option.some_or]
  rw [Engine.compile, getOrCompile_of_find?_eq_some found]

/-! ## Runs from the empty cache -/

/-- Whatever is asked of an empty cache, in whatever environment and with
whatever hash: a type is found exactly if a compilation for it has succeeded, and
then with the value of the first one.  Nothing is compiled for a type that is
found, and a compilation that fails changes nothing.  The entries stand in the
buckets of their types, one for each type that is found; the number of buckets
is the least power of two times eight that is at least twice their number.  What
the expressions of a program that is found evaluate to never changes. -/
theorem cache_keeps_first_programs (hash : RecordType → Nat) (environment : Environment)
    (requests : List (Request ε Program)) :
    let store : Store Program := Store.after hash ⟨environment, .empty⟩ requests
    let published := {type | (firstCompiled type environment requests).isSome}
    (∀ type, store.serve hash (.get type : Request ε Program) =
      (.found (firstCompiled type environment requests), store)) ∧
    store.serve hash (.length : Request ε Program) = (.counted published.ncard, store) ∧
    (∀ type program (compile : Environment → Logged ε Program),
      firstCompiled type environment requests = some program →
        store.serve hash (.getOrCompile type compile) = (.compiled (pure program), store)) ∧
    (∀ type program (compile : Environment → Logged ε Program),
      firstCompiled type environment requests = none →
        (compile store.environment).outcome = .ok program →
          ∃ result, (store.serve hash (.getOrCompile type compile)).1 = .compiled result ∧
            result.outcome = .ok program) ∧
    (∀ type (compile : Environment → Logged ε Program) (error : ε),
      firstCompiled type environment requests = none →
        (compile store.environment).outcome = .error error →
          store.serve hash (.getOrCompile type compile) =
            (.compiled (compile store.environment), store)) ∧
    (∀ (index : Nat) (bucket : List (RecordType × Program)),
      store.cache.buckets[index]? = some bucket → ∀ entry ∈ bucket,
        hash entry.1 % store.cache.buckets.length = index) ∧
    (store.cache.entries.map Prod.fst).Nodup ∧
    (∃ doublings, store.cache.buckets.length = 8 * 2 ^ doublings ∧
      2 * store.cache.size ≤ 8 * 2 ^ doublings ∧
      ∀ fewer, 2 * store.cache.size ≤ 8 * 2 ^ fewer → doublings ≤ fewer) ∧
    ∀ (later : List (Request ε Program)) type program inst selector,
      firstCompiled type environment requests = some program →
        ((store.after hash later).cache.find? hash type).map (·.eval inst selector) =
          some (program.eval inst selector) := by
  intro store published
  have start : WellFormed hash (⟨environment, .empty⟩ : Store Program).cache := .empty
  obtain ⟨⟨placed, roomy⟩, finds⟩ := start.after requests
  have finds (type : RecordType) : store.cache.find? hash type =
      firstCompiled type environment requests := by
    have missing : (Cache.empty : Cache Program).find? hash type = none := find?_withBuckets _ _
    rw [finds, missing, Option.none_or]
  have size : store.cache.size = published.ncard := by
    have counted : store.cache.size = {type | (store.cache.find? hash type).isSome}.ncard :=
      placed.size_eq_ncard
    simpa only [finds] using counted
  refine ⟨fun type => ?_, ?_, fun type program compile found => ?_,
    fun type program compile missing succeeded => ?_,
    fun type compile error missing failed => ?_, placed.inBucket, placed.distinct, roomy,
    fun later type program inst selector found => ?_⟩
  · rw [← finds]
    rfl
  · rw [← size]
    rfl
  · have served := getOrCompile_of_find?_eq_some ((finds type).trans found)
      (compile store.environment)
    simp only [Store.serve, served, Request.environment]
  · refine ⟨(store.cache.getOrCompile hash type (compile store.environment)).1, rfl, ?_⟩
    simp only [getOrCompile, finds, missing, succeeded, Logged.outcome_bind, Logged.outcome_report,
      Logged.outcome_pure]
    rfl
  · have served : store.cache.getOrCompile hash type (compile store.environment) =
        (compile store.environment, store.cache) := by
      simp only [getOrCompile, finds, missing, failed]
    simp only [Store.serve, served, Request.environment]
  · have kept : WellFormed hash store.cache := ⟨placed, roomy⟩
    rw [(kept.after later).2, finds, found, Option.some_or, Option.map_some]

end FieldRules.Cache

namespace FieldRules.Cache

attribute [local instance] RegexLibrary.empty

/-- Two types that share a bucket, a compilation that fails before one that
succeeds, and another one after a predicate has been replaced. -/
theorem second_compilation_kept :
    let order : RecordType := ⟨"Order"⟩
    let person : RecordType := ⟨"Person"⟩
    let first : Program := ⟨order, []⟩
    let requests : List (Request CompileError Program) :=
      [.getOrCompile order fun _ => .fail .aborted,
        .getOrCompile person fun _ => pure ⟨person, []⟩,
        .getOrCompile order fun _ => pure first,
        .register "even" (fun _ => true) true,
        .getOrCompile order fun _ => pure ⟨order, [⟨"id", fun _ => .nil, []⟩]⟩]
    let store : Store Program := Store.after (fun _ => 0) ⟨⟨.empty, .empty⟩, .empty⟩ requests
    firstCompiled order ⟨.empty, .empty⟩ requests = some first ∧
      store.serve (fun _ => 0) (.get order : Request CompileError Program) =
        (.found (some first), store) ∧
      ∀ compile : Environment → Logged CompileError Program,
        store.serve (fun _ => 0) (.getOrCompile order compile) =
          (.compiled (pure first), store) := by
  intro order person first requests store
  have found : firstCompiled order ⟨.empty, .empty⟩ requests = some first := rfl
  obtain ⟨gets, -, hits, -⟩ := cache_keeps_first_programs (fun _ => 0) ⟨.empty, .empty⟩ requests
  exact ⟨found, found ▸ gets order, fun compile => hits order first compile found⟩

end FieldRules.Cache
