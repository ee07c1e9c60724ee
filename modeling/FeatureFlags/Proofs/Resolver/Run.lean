import FeatureFlags.Proofs.Cache.Contents
import FeatureFlags.Resolver.Basic

/-!
# Steps and runs of a resolver

`Handling` lists all that `handle` can do with an event, with the condition of each case; every
property of a run of events comes from these five cases (`handle_handling`). Only an accepted update
touches the cache or the store.

A run goes through calls one after the other: `runEvents` through events of the source, and `run`
through any calls, with the answer that each of them gets.
-/

namespace FeatureFlags

/-- Whether the text of an update can be read. That does not depend on the set it is applied to. -/
def PayloadContent.isReadable : PayloadContent → Bool
  | full text => (FlagSet.parse text).isOk
  | delta text => (FlagDelta.parse text).isOk

theorem PayloadContent.isReadable_iff (content : PayloadContent) (current : Option FlagSet) :
    content.isReadable = true ↔ ∃ set, content.apply current = .ok set := by
  cases content with
  | full text =>
    cases h : FlagSet.parse text <;> simp [isReadable, apply, h, Except.isOk, Except.toBool]
  | delta text =>
    cases h : FlagDelta.parse text <;>
      simp [isReadable, apply, h, Except.isOk, Except.toBool, Except.map]

/-- Why an event makes the configuration doubtful, if it does. -/
def StorageEvent.doubt? : StorageEvent → Option String
  | .stale reason => some reason
  | .error failure => if failure.fatal then none else some failure.message
  | _ => none

namespace Resolver

/-- All that a resolver can do with an event. -/
inductive Handling (resolver : Resolver) : StorageEvent → List ProviderEvent × Resolver → Prop
  | accepted {event : StorageEvent} {payload : SyncPayload} {set : FlagSet}
      (carries : event.payload? = some payload)
      (reads : payload.content.apply resolver.store.set? = .ok set) :
      Handling resolver event (resolver.accept set payload)
  | rejected {event : StorageEvent} {payload : SyncPayload} {error : DocumentError}
      (carries : event.payload? = some payload)
      (fails : payload.content.apply resolver.store.set? = .error error) :
      Handling resolver event
        ([.ofError .parseError ("invalid flag configuration: " ++ error.message) false], resolver)
  | doubted {event : StorageEvent} {reason : String} (doubt : event.doubt? = some reason)
      (ready : resolver.state = .ready) :
      Handling resolver event ([.stale reason], { resolver with state := .stale })
  | ignored {event : StorageEvent} {reason : String} (doubt : event.doubt? = some reason)
      (unready : resolver.state ≠ .ready) : Handling resolver event ([], resolver)
  | failed {failure : SyncFailure} (fatal : failure.fatal = true) :
      Handling resolver (.error failure) ([.ofError .general failure.message true],
        { resolver with state := .fatalError, fatal := some failure.message })

theorem applyPayload_handling {resolver : Resolver} {event : StorageEvent} {payload : SyncPayload}
    (carries : event.payload? = some payload) :
    Handling resolver event (resolver.applyPayload payload) := by
  unfold applyPayload
  split
  · rename_i set reads
    exact .accepted carries reads
  · rename_i error fails
    exact .rejected carries fails

/-- An update is applied, whichever event carries it. -/
theorem handle_of_carries (resolver : Resolver) {event : StorageEvent} {payload : SyncPayload}
    (carries : event.payload? = some payload) :
    resolver.handle event = resolver.applyPayload payload := by
  cases event <;> cases carries <;> rfl

theorem markStale_handling {resolver : Resolver} {event : StorageEvent} {reason : String}
    (doubt : event.doubt? = some reason) : Handling resolver event (resolver.markStale reason) := by
  unfold markStale
  split
  · rename_i ready
    exact .doubted doubt ready
  · rename_i unready
    exact .ignored doubt unready

theorem handle_handling (resolver : Resolver) (event : StorageEvent) :
    Handling resolver event (resolver.handle event) := by
  cases event with
  | ready payload => exact applyPayload_handling rfl
  | changed payload => exact applyPayload_handling rfl
  | stale reason => exact markStale_handling rfl
  | error failure =>
    simp only [handle, handleFailure]
    split
    · rename_i fatal
      exact .failed fatal
    · rename_i fatal
      exact markStale_handling (by simp [StorageEvent.doubt?, fatal])

/-! ## Runs of events -/

/-- Handles events one after the other, and collects what is to be published. -/
def runEvents : Resolver → List StorageEvent → List ProviderEvent × Resolver
  | resolver, [] => ([], resolver)
  | resolver, event :: events =>
    let (published, resolver) := resolver.handle event
    let (later, resolver) := resolver.runEvents events
    (published ++ later, resolver)

theorem runEvents_append (resolver : Resolver) (xs ys : List StorageEvent) :
    resolver.runEvents (xs ++ ys) =
      ((resolver.runEvents xs).1 ++ ((resolver.runEvents xs).2.runEvents ys).1,
        ((resolver.runEvents xs).2.runEvents ys).2) := by
  induction xs generalizing resolver with
  | nil => rfl
  | cons x xs ih => simp only [List.cons_append, runEvents, ih, List.append_assoc]

/-- What every event keeps, a run of events keeps. -/
theorem runEvents_induction {P : Resolver → Prop}
    (keeps : ∀ resolver event, P resolver → P (resolver.handle event).2) {resolver : Resolver}
    (events : List StorageEvent) (h : P resolver) : P (resolver.runEvents events).2 := by
  induction events generalizing resolver with
  | nil => exact h
  | cons event events ih => exact ih (keeps resolver event h)

end Resolver

/-! ## Runs of calls -/

/-- Something that is done with a resolver. -/
inductive ResolverCall where
  | begin
  | handle (event : StorageEvent)
  | resolve (flagKey : String) (kind : ValueKind) (fallback : kind.Carrier)
      (context : EvaluationContext)
  | retire

namespace ResolverCall

/-- What the caller gets. -/
def Answer : ResolverCall → Type
  | begin => Unit
  | handle _ => List ProviderEvent
  | resolve _ kind _ _ => ResolutionDetails kind.Carrier
  | retire => Unit

/-- For whom a flag is resolved. -/
def context? : ResolverCall → Option EvaluationContext
  | resolve _ _ _ context => some context
  | _ => none

end ResolverCall

namespace Resolver

/-- Makes a call. -/
def call (resolver : Resolver) : (call : ResolverCall) → call.Answer × Resolver
  | .begin => ((), resolver.begin)
  | .handle event => resolver.handle event
  | .resolve flagKey kind fallback context => resolver.resolve flagKey kind fallback context
  | .retire => ((), resolver.retire)

/-- Makes calls one after the other, and collects the answers. -/
def run : Resolver → List ResolverCall → List (Sigma ResolverCall.Answer) × Resolver
  | resolver, [] => ([], resolver)
  | resolver, call :: calls =>
    let (answer, resolver) := resolver.call call
    let (answers, resolver) := resolver.run calls
    (⟨call, answer⟩ :: answers, resolver)

theorem run_append (resolver : Resolver) (xs ys : List ResolverCall) :
    resolver.run (xs ++ ys) =
      ((resolver.run xs).1 ++ ((resolver.run xs).2.run ys).1,
        ((resolver.run xs).2.run ys).2) := by
  induction xs generalizing resolver with
  | nil => rfl
  | cons x xs ih => simp only [List.cons_append, run, ih]

@[simp] theorem length_run (resolver : Resolver) (calls : List ResolverCall) :
    (resolver.run calls).1.length = calls.length := by
  induction calls generalizing resolver with
  | nil => rfl
  | cons call calls ih => exact congrArg (· + 1) (ih (resolver.call call).2)

/-- A resolver without a configuration, with a cache of any size whose keys are assigned to shards
in any way. -/
def routed (capacity : Nat) (route : CacheKey → Nat) (evaluator : TargetingEvaluator) : Resolver :=
  { cache := .routed capacity route, evaluator }

theorem new_eq_routed (capacity : Nat) (evaluator : TargetingEvaluator) :
    new capacity evaluator = routed capacity ResolutionCache.spread evaluator := rfl

end Resolver

end FeatureFlags
