import FeatureFlags.Proofs.Service.Chronicle

/-!
# When a configuration counts as stale

A `Feed` is a driver that hands its events to a resolver; what the writer of a service does is a
run of one (`exists_run_of_settle`). As long as the driver is at work, the state of the resolver
follows from what the open session has delivered (`Tracks`): with a configuration it is ready if it
has accepted one in this session since the source was last degraded, and stale otherwise
(`ready_iff_settled`). A sign of life alone does not count. The driver makes no event of it, so a
resolver that has become stale stays so until the next configuration, although the source has
recovered (`stale_despite_heartbeat`).
-/

namespace FeatureFlags

namespace SyncMessage

def isDegraded : SyncMessage → Bool
  | degraded _ => true
  | _ => false

/-- Whether a resolver takes the message for its configuration. -/
def isAccepted : SyncMessage → Bool
  | configuration payload => payload.content.isReadable
  | _ => false

/-- Whether a configuration was accepted since the source was last degraded. The newest message
stands first. -/
def settled (messages : List SyncMessage) : Bool :=
  (messages.takeWhile fun message => !message.isDegraded).any isAccepted

theorem settled_cons (message : SyncMessage) (messages : List SyncMessage) :
    settled (message :: messages) =
      (!message.isDegraded && (message.isAccepted || settled messages)) := by
  unfold settled
  cases h : message.isDegraded <;> simp [h]

end SyncMessage

/-- A driver that hands its events to a resolver. -/
structure Feed where
  driver : SyncDriver
  resolver : Resolver
  /-- What the open session has delivered, the newest message first. -/
  heard : List SyncMessage := []

namespace Feed

/-- A driver that is about to open its first session, for a resolver that waits for it. -/
def start (policy : RetryPolicy) (resolver : Resolver) : Feed :=
  { driver := .ofPolicy policy, resolver := resolver.begin }

/-- What the session that is open after an input has delivered. -/
def hear (feed : Feed) (input : DriverInput) : List SyncMessage :=
  if feed.driver.phase.expects input then
    match input with
    | .opened => []
    | .message message => message :: feed.heard
    | _ => feed.heard
  else feed.heard

/-- Something happens to the driver, and the resolver handles the event that may follow. -/
def step (feed : Feed) (draw : Binary64) (input : DriverInput) : Feed :=
  let (emission, driver) := feed.driver.step draw input
  { driver
    resolver := emission.elim feed.resolver fun emission => (feed.resolver.handle emission.event).2
    heard := feed.hear input }

/-- Things happen to the driver one after the other. -/
def run (feed : Feed) (inputs : List (Binary64 × DriverInput)) : Feed :=
  inputs.foldl (fun feed input => feed.step input.1 input.2) feed

/-- Whether the open session, if there is one, has delivered what makes the resolver ready. -/
def isHealthy (feed : Feed) : Bool :=
  feed.driver.phase == .streaming && SyncMessage.settled feed.heard

end Feed

/-! ## What events make of the state -/

namespace Resolver

variable {resolver : Resolver} {healthy : Bool}

/-- The state of a resolver that waits for its first configuration, or that has one from a source
that is healthy or not. -/
def Stands (resolver : Resolver) (healthy : Bool) : Prop :=
  resolver.state =
    if resolver.store.hasSnapshot then if healthy then .ready else .stale else .initializing

theorem Stands.markStale (h : resolver.Stands healthy) (reason : String) :
    (resolver.markStale reason).2.Stands false := by
  unfold Stands at h
  unfold Resolver.markStale
  split
  · rename_i ready
    cases hs : resolver.store.hasSnapshot with
    | true => simp [Stands, hs]
    | false => simp [hs, ready] at h
  · rename_i unready
    unfold Stands
    cases hs : resolver.store.hasSnapshot with
    | true =>
      rw [hs, if_pos rfl] at h
      cases healthy with
      | true => exact absurd h unready
      | false => exact h
    | false =>
      rw [hs] at h
      exact h

theorem Stands.applyPayload (h : resolver.Stands healthy) (payload : SyncPayload) :
    (resolver.applyPayload payload).2.Stands (payload.content.isReadable || healthy) := by
  unfold Resolver.applyPayload
  split
  · rename_i set reads
    rw [(payload.content.isReadable_iff _).2 ⟨set, reads⟩]
    rfl
  · rename_i error fails
    have unreadable : payload.content.isReadable = false := by
      refine Bool.eq_false_iff.2 fun readable => ?_
      obtain ⟨set, reads⟩ := (payload.content.isReadable_iff resolver.store.set?).1 readable
      cases reads.symm.trans fails
    rw [unreadable]
    exact h

end Resolver

namespace Feed

variable {feed : Feed}

/-- As long as the driver is at work, the state of the resolver follows from what the open session
has delivered. -/
def Tracks (feed : Feed) : Prop :=
  feed.driver.phase ≠ .terminated → feed.resolver.Stands feed.isHealthy

theorem tracks_start (policy : RetryPolicy) (capacity : Nat) (evaluator : TargetingEvaluator) :
    (start policy (.new capacity evaluator)).Tracks := fun _ => rfl

theorem hear_opened (connecting : feed.driver.phase = .connecting) : feed.hear .opened = [] := by
  simp [hear, connecting, DriverPhase.expects]

theorem hear_message (streaming : feed.driver.phase = .streaming) (message : SyncMessage) :
    feed.hear (.message message) = message :: feed.heard := by
  simp [hear, streaming, DriverPhase.expects]

/-- A feed whose driver has no open session is not healthy. -/
theorem isHealthy_eq_false {driver : SyncDriver} {resolver : Resolver} {heard : List SyncMessage}
    (h : driver.phase ≠ .streaming) : isHealthy ⟨driver, resolver, heard⟩ = false := by
  simp [isHealthy, h]

/-- What a message of the open session makes of the resolver. -/
theorem stands_of_receive (driver : SyncDriver) {resolver : Resolver}
    {earlier : List SyncMessage} (h : resolver.Stands (SyncMessage.settled earlier))
    (message : SyncMessage) :
    Resolver.Stands
      ((driver.receive message).1.elim resolver fun event => (resolver.handle event).2)
      (SyncMessage.settled (message :: earlier)) := by
  rw [SyncMessage.settled_cons]
  cases message with
  | configuration payload =>
    have hhandle : resolver.handle (if driver.delivered then .changed payload else .ready payload) =
        resolver.applyPayload payload := by
      split <;> rfl
    simp only [SyncDriver.receive, Option.elim_some, hhandle]
    exact h.applyPayload payload
  | degraded reason => exact h.markStale reason
  | heartbeat => exact h

theorem tracks_step (h : feed.Tracks) (draw : Binary64) (input : DriverInput) :
    (feed.step draw input).Tracks := by
  have stepping := feed.driver.step_stepping draw input
  unfold step
  generalize feed.driver.step draw input = result at stepping ⊢
  cases stepping with
  | ignores unexpected =>
    unfold hear
    rw [unexpected]
    exact h
  | stops running cancelled => exact fun hphase => absurd rfl hphase
  | connects waiting =>
    intro _
    have hstands := h (by rw [waiting]; exact nofun)
    rw [isHealthy_eq_false (by rw [waiting]; exact nofun)] at hstands
    exact hstands
  | opens connecting =>
    intro _
    have hstands := h (by rw [connecting]; exact nofun)
    rw [isHealthy_eq_false (by rw [connecting]; exact nofun)] at hstands
    rw [hear_opened connecting]
    exact hstands
  | @hears message streaming =>
    intro _
    have hstands := h (by rw [streaming]; exact nofun)
    have hhealthy : feed.isHealthy = SyncMessage.settled feed.heard := by
      simp [isHealthy, streaming]
    rw [hhealthy] at hstands
    have hlater : isHealthy ⟨(feed.driver.receive message).2, feed.resolver,
        message :: feed.heard⟩ = SyncMessage.settled (message :: feed.heard) := by
      simp [isHealthy, streaming]
    have hreceived := stands_of_receive feed.driver hstands message
    rw [← hlater] at hreceived
    dsimp only
    rw [hear_message streaming, Option.elim_map]
    exact hreceived
  | retries attached breaks again =>
    intro _
    have hstands := h (SyncDriver.running_of_isAttached attached)
    rw [isHealthy_eq_false (by exact nofun)]
    exact hstands.markStale _
  | givesUp attached breaks exhausted => exact fun hphase => absurd rfl hphase
  | refuses attached final uncancelled => exact fun hphase => absurd rfl hphase

theorem tracks_run (h : feed.Tracks) (inputs : List (Binary64 × DriverInput)) :
    (feed.run inputs).Tracks := by
  induction inputs generalizing feed with
  | nil => exact h
  | cons input inputs ih => exact ih (tracks_step h input.1 input.2)

theorem state_of_streaming (h : feed.Tracks) (streaming : feed.driver.phase = .streaming)
    (configured : feed.resolver.store.hasSnapshot = true) :
    feed.resolver.state = if SyncMessage.settled feed.heard then .ready else .stale := by
  rw [h (by rw [streaming]; exact nofun), configured]
  simp [isHealthy, streaming]

/-- In an open session, a resolver with a configuration is ready exactly if it has accepted one in
this session since the source was last degraded; otherwise it is stale. -/
theorem ready_iff_settled (policy : RetryPolicy) (capacity : Nat) (evaluator : TargetingEvaluator)
    (inputs : List (Binary64 × DriverInput)) :
    let feed := (start policy (.new capacity evaluator)).run inputs
    feed.driver.phase = .streaming → feed.resolver.store.hasSnapshot = true →
      (feed.resolver.state = .ready ↔ SyncMessage.settled feed.heard = true) ∧
        (feed.resolver.state = .stale ↔ SyncMessage.settled feed.heard = false) := by
  intro feed streaming configured
  have tracks : feed.Tracks := tracks_run (tracks_start policy capacity evaluator) inputs
  rw [state_of_streaming tracks streaming configured]
  cases SyncMessage.settled feed.heard <;> simp

/-- Things that happen to a driver whose source falls silent and then gives a sign of life. -/
def silence : List (Binary64 × DriverInput) :=
  [(.zero, .waited), (.zero, .opened),
    (.zero, .message (.configuration { content := .full "\x7b\"flags\":\x7b\x7d\x7d" })),
    (.zero, .message (.degraded "no events for 60000 ms")), (.zero, .message .heartbeat)]

theorem ready_iff_settled_silence :
    let feed := (start {} (.new 0 TargetingRules.evaluator)).run silence
    (feed.driver.phase = .streaming ∧ feed.resolver.store.hasSnapshot = true) ∧
      (feed.resolver.state = .ready ↔ SyncMessage.settled feed.heard = true) ∧
        (feed.resolver.state = .stale ↔ SyncMessage.settled feed.heard = false) := by
  intro feed
  have streaming : feed.driver.phase = .streaming := by decide +kernel
  have configured : feed.resolver.store.hasSnapshot = true := by decide +kernel
  exact ⟨⟨streaming, configured⟩,
    ready_iff_settled {} 0 TargetingRules.evaluator silence streaming configured⟩

/-- A sign of life does not make a stale resolver ready again, although the source has recovered. -/
theorem stale_despite_heartbeat :
    let feed := (start {} (.new 0 TargetingRules.evaluator)).run silence
    feed.driver.phase = .streaming ∧ feed.resolver.store.hasSnapshot = true ∧
      feed.heard.head? = some .heartbeat ∧ feed.resolver.state = .stale := by
  decide +kernel

/-! ## The writer of a service -/

theorem run_eq (feed : Feed) (turns : List SyncDriver.Turn) :
    (feed.run turns).driver = (feed.driver.run turns).2 ∧
      (feed.run turns).resolver =
        (feed.resolver.runEvents ((feed.driver.run turns).1.map (·.event))).2 := by
  induction turns generalizing feed with
  | nil => exact ⟨rfl, rfl⟩
  | cons turn turns ih =>
    obtain ⟨hdriver, hresolver⟩ := ih (feed.step turn.1 turn.2)
    refine ⟨hdriver, hresolver.trans ?_⟩
    rw [SyncDriver.run_cons, List.map_append, Resolver.runEvents_append]
    dsimp only [step]
    cases (feed.driver.step turn.1 turn.2).1 <;> rfl

/-- What the writer of a service does until it has to wait is a run of a feed. -/
theorem exists_run_of_settle {σ : Type} [Channel σ] (now : Nat) (writer : Writer σ)
    (resolver : Resolver) (subscribers : Subscribers) (heard : List SyncMessage) :
    ∃ inputs, ∃ result : Feed, run ⟨writer.driver, resolver, heard⟩ inputs = result ∧
      let stop := writer.settle ResolverService.take now (resolver, subscribers)
      result.driver = stop.2.2.driver ∧ result.resolver = stop.1.1 := by
  obtain ⟨turns, hdriver, hstate⟩ :=
    writer.exists_run_of_settle ResolverService.take now (resolver, subscribers)
  obtain ⟨hrun, hresolver⟩ := run_eq ⟨writer.driver, resolver, heard⟩ turns
  rw [ResolverService.foldl_take] at hstate
  exact ⟨turns, _, rfl, hrun.trans hdriver.symm, hresolver.trans (congrArg (·.1) hstate).symm⟩

end Feed

end FeatureFlags
