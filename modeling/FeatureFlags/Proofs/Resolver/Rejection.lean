import FeatureFlags.Proofs.Bus.Numbers
import FeatureFlags.Proofs.Resolver.Run

/-!
# Rejected updates

Whether the text of an update can be read does not depend on the configuration that it would change
(`apply_eq_error_iff`). A resolver that is handed an update that cannot be read reports why, and
stays as it is (`handle_of_fault`). So an update that is rejected is as if it had never arrived: a
run of calls with it and the run without it differ by that one report, and by the numbers of the
events after it (`rejected_leaves_no_trace`).
-/

namespace FeatureFlags

namespace PayloadContent

/-- Why the text of an update cannot be read, if it cannot. -/
def fault? : PayloadContent → Option DocumentError
  | full text => match FlagSet.parse text with
    | .ok _ => none
    | .error error => some error
  | delta text => match FlagDelta.parse text with
    | .ok _ => none
    | .error error => some error

theorem apply_eq_error_iff (content : PayloadContent) (current : Option FlagSet)
    (error : DocumentError) :
    content.apply current = .error error ↔ content.fault? = some error := by
  cases content with
  | full text => cases h : FlagSet.parse text <;> simp [apply, fault?, h]
  | delta text => cases h : FlagDelta.parse text <;> simp [apply, fault?, h, Except.map]

end PayloadContent

/-- The report of an update that cannot be read. -/
def ProviderEvent.rejection (error : DocumentError) : ProviderEvent :=
  .ofError .parseError ("invalid flag configuration: " ++ error.message) false

/-- The events that were published when a call was answered. -/
def ResolverCall.published : Sigma ResolverCall.Answer → List ProviderEvent
  | ⟨.handle _, events⟩ => events
  | _ => []

namespace Resolver

/-- A resolver that is handed an update that cannot be read says why, and stays as it is. -/
theorem handle_of_fault (resolver : Resolver) {event : StorageEvent} {payload : SyncPayload}
    {error : DocumentError} (carries : event.payload? = some payload)
    (fault : payload.content.fault? = some error) :
    resolver.handle event = ([.rejection error], resolver) := by
  have fails : payload.content.apply resolver.store.set? = .error error :=
    (payload.content.apply_eq_error_iff _ _).2 fault
  rw [handle_of_carries resolver carries, applyPayload, fails]
  rfl

/-- The events that a resolver publishes in a run of calls, as the bus hands them out. -/
def heard (bus : EventBus) (answers : List (Sigma ResolverCall.Answer)) : List ProviderEvent :=
  bus.stampAll (answers.flatMap ResolverCall.published)

theorem heard_append (bus : EventBus) (earlier later : List (Sigma ResolverCall.Answer)) :
    heard bus (earlier ++ later) = heard bus earlier ++
      heard (bus.publishAll (earlier.flatMap ResolverCall.published)) later := by
  unfold heard
  rw [List.flatMap_append, EventBus.stampAll_append]

/-- One event more gives the events after it the next higher numbers. -/
theorem heard_cons_single (bus : EventBus) (event : StorageEvent) (published : ProviderEvent)
    (later : List (Sigma ResolverCall.Answer)) :
    heard bus (⟨.handle event, [published]⟩ :: later) =
      bus.stamp published :: (heard bus later).map ProviderEvent.oneHigher :=
  congrArg _ (EventBus.stampAll_of_published_succ (bus.published_publish published) _)

/-- A rejected update is as if it had never arrived. At every later point the resolver is the same
as without it, all calls are answered in the same way, and the same events are published in the same
order, but for the report of the rejection and the numbers after it. -/
theorem rejected_leaves_no_trace (capacity : Nat) (route : CacheKey → Nat)
    (evaluator : TargetingEvaluator) (room : Nat) (before after : List ResolverCall)
    {event : StorageEvent} {payload : SyncPayload} {error : DocumentError}
    (carries : event.payload? = some payload) (fault : payload.content.fault? = some error) :
    let start := routed capacity route evaluator
    let bus := EventBus.new room
    let disturbed := start.run (before ++ .handle event :: after)
    let undisturbed := start.run (before ++ after)
    disturbed.2 = undisturbed.2 ∧
      ∃ earlier later : List (Sigma ResolverCall.Answer),
        earlier.length = before.length ∧ undisturbed.1 = earlier ++ later ∧
        disturbed.1 = earlier ++ ⟨.handle event, [.rejection error]⟩ :: later ∧
        ∃ rest : List ProviderEvent,
          heard bus undisturbed.1 = heard bus earlier ++ rest ∧
          heard bus disturbed.1 = heard bus earlier ++
            { ProviderEvent.rejection error with
              sequence := UInt64.ofNat ((heard bus earlier).length + 1) } ::
            rest.map ProviderEvent.oneHigher := by
  intro start bus disturbed undisturbed
  let reached := (start.run before).2
  have hundisturbed : undisturbed =
      ((start.run before).1 ++ (reached.run after).1, (reached.run after).2) :=
    start.run_append before after
  have hdisturbed : disturbed =
      ((start.run before).1 ++
        ⟨.handle event, [.rejection error]⟩ :: (reached.run after).1, (reached.run after).2) := by
    refine (start.run_append before _).trans ?_
    simp only [run, call]
    rw [handle_of_fault _ carries fault]
  rw [hundisturbed, hdisturbed]
  refine ⟨rfl, (start.run before).1, (reached.run after).1, start.length_run before, rfl, rfl, ?_⟩
  refine ⟨_, heard_append bus _ _, ?_⟩
  have hnumber : (bus.publishAll ((start.run before).1.flatMap ResolverCall.published)).published =
      (heard bus (start.run before).1).length := by
    rw [EventBus.published_publishAll, heard, EventBus.length_stampAll]
    exact Nat.zero_add _
  rw [heard_append, heard_cons_single, EventBus.stamp, hnumber]

/-- The first update that arrives has one bad flag beside a good one; the next one, with the good
flag alone, makes the resolver ready as the first one would have done. -/
theorem rejected_leaves_no_trace_first_update :
    let flag := fun key variant => "\"" ++ key ++ "\":\x7b\"state\":\"ENABLED\"," ++
      "\"variants\":\x7b\"v\":true\x7d,\"defaultVariant\":\"" ++ variant ++ "\"\x7d"
    let document := fun flags => "\x7b\"flags\":\x7b" ++ flags ++ "\x7d\x7d"
    let payload : SyncPayload :=
      { content := .full (document (flag "f" "v" ++ "," ++ flag "g" "w")) }
    let after : List ResolverCall :=
      [.handle (.changed { content := .delta (document (flag "f" "v")) }),
        .resolve "f" .boolean false {}, .handle (.stale "quiet")]
    let start := routed 2 ResolutionCache.spread TargetingRules.evaluator
    let bus := EventBus.new 4
    let disturbed := start.run ([.begin] ++ .handle (.ready payload) :: after)
    let undisturbed := start.run ([.begin] ++ after)
    (heard bus disturbed.1).map (fun event => (event.kind, event.sequence)) =
        [(.error, 1), (.ready, 2), (.stale, 3)] ∧
      ∃ error : DocumentError,
        error.message = "Invalid flag g: defaultVariant 'w' is not a variant" ∧
        payload.content.fault? = some error ∧
        disturbed.2 = undisturbed.2 ∧
        ∃ earlier later : List (Sigma ResolverCall.Answer),
          earlier.length = 1 ∧ undisturbed.1 = earlier ++ later ∧
          disturbed.1 = earlier ++ ⟨.handle (.ready payload), [.rejection error]⟩ :: later ∧
          ∃ rest : List ProviderEvent,
            heard bus undisturbed.1 = heard bus earlier ++ rest ∧
            heard bus disturbed.1 = heard bus earlier ++
              { ProviderEvent.rejection error with
                sequence := UInt64.ofNat ((heard bus earlier).length + 1) } ::
              rest.map ProviderEvent.oneHigher := by
  intro flag document payload after
  refine ⟨by decide +kernel, ?_⟩
  have hmessage : payload.content.fault?.map (·.message) =
      some "Invalid flag g: defaultVariant 'w' is not a variant" := by decide +kernel
  obtain ⟨error, fault, message⟩ := Option.map_eq_some_iff.1 hmessage
  exact ⟨error, message, fault,
    rejected_leaves_no_trace 2 ResolutionCache.spread TargetingRules.evaluator 4 [.begin] after rfl
      fault⟩

end Resolver

end FeatureFlags
