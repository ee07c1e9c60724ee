import FeatureFlags.Proofs.Sync.Account

/-!
# What a driver reports

`report` says what is to be told of an input, given what happened before it: each configuration with
its payload, as the first one or as a change, each reason for which the source is degraded, and the
failure of each session that could not be opened, broke off or ended, unless a cancellation ended
it. It looks at what happened only, not at a driver.

What a driver hands out in a run is what is to be told of the inputs that it heeded, in their order
(`events_run`).
-/

namespace FeatureFlags

namespace DriverInput

/-- Whether the input brings a configuration. -/
def isConfiguration : DriverInput → Bool
  | message (.configuration _) => true
  | _ => false

/-- The failures in a row with one more; the count stops at the greatest number of 32 bits. -/
def counted (before : List DriverInput) : Nat := Nat.min (strikes before + 1) 0xFFFFFFFF

/-- The failure that is reported of a session that another one may follow. -/
def setback (policy : RetryPolicy) (before : List DriverInput) (message : String) : SyncFailure :=
  if policy.maxRetries.toNat < counted before then
    ⟨"gave up after " ++ toString (counted before - 1) ++ " reconnect attempts: " ++ message, true⟩
  else ⟨message, false⟩

/-- What is to be told of an input, after what happened before it. -/
def report (policy : RetryPolicy) (before : List DriverInput) : DriverInput → Option StorageEvent
  | message (.configuration payload) =>
    some (if before.any isConfiguration then .changed payload else .ready payload)
  | message (.degraded reason) => some (.stale reason)
  | message .heartbeat => none
  | failed error =>
    if error = .cancelled then none
    else if error.isRetryable then some (.error (setback policy before error.message))
    else some (.error ⟨error.message, true⟩)
  | ended => some (.error (setback policy before "sync session ended"))
  | waited => none
  | opened => none
  | cancelled => none

/-- What is to be told of some inputs in their order, after what happened before them. -/
def reports (policy : RetryPolicy) : List DriverInput → List DriverInput → List StorageEvent
  | _, [] => []
  | before, input :: rest =>
    (report policy before input).toList ++ reports policy (before ++ [input]) rest

theorem report_of_interruption {input : DriverInput} {text : String}
    (breaks : input.interruption? = some text) (policy : RetryPolicy)
    (before : List DriverInput) :
    report policy before input = some (.error (setback policy before text)) := by
  cases input with
  | failed error =>
    obtain ⟨passing, rfl⟩ : error.isRetryable = true ∧ error.message = text := by
      simpa [interruption?] using breaks
    have uncancelled : error ≠ .cancelled := by
      rintro rfl
      cases passing
    rw [report, if_neg uncancelled, if_pos passing]
  | ended => cases breaks; rfl
  | waited => cases breaks
  | opened => cases breaks
  | message delivered => cases breaks
  | cancelled => cases breaks

theorem report_of_refusal {error : SyncError} (final : error.isRetryable = false)
    (uncancelled : error ≠ .cancelled) (policy : RetryPolicy) (before : List DriverInput) :
    report policy before (.failed error) = some (.error ⟨error.message, true⟩) := by
  rw [report, if_neg uncancelled, final]
  rfl

end DriverInput

namespace SyncDriver

open DriverInput (strikes counted report reports)

variable {driver : SyncDriver}

/-- What a driver has kept of what happened to it. -/
structure Recalls (policy : RetryPolicy) (history : List DriverInput) (driver : SyncDriver) :
    Prop where
  policy_eq : driver.backoff.policy = policy
  delivered_eq : driver.delivered = history.any DriverInput.isConfiguration
  failures_eq : driver.phase ≠ .terminated →
    driver.backoff.failures = Nat.min (strikes history) 0xFFFFFFFF

namespace Recalls

variable {policy : RetryPolicy} {history : List DriverInput}

theorem start (policy : RetryPolicy) : Recalls policy [] (ofPolicy policy) :=
  ⟨rfl, rfl, fun _ => rfl⟩

/-- The count that a driver makes of a failure is that of its history. -/
theorem counted_eq (recalls : Recalls policy history driver)
    (running : driver.phase ≠ .terminated) :
    Nat.min (driver.backoff.failures + 1) 0xFFFFFFFF = counted history := by
  rw [recalls.failures_eq running]
  change min (min (strikes history) 0xFFFFFFFF + 1) 0xFFFFFFFF =
    min (strikes history + 1) 0xFFFFFFFF
  omega

/-- Nothing but a configuration or a failure changes what the driver has kept. -/
theorem unmoved {next : SyncDriver} {input : DriverInput} (recalls : Recalls policy history driver)
    (running : driver.phase ≠ .terminated) (backoff_eq : next.backoff = driver.backoff)
    (delivered_eq : next.delivered = driver.delivered)
    (unconfigured : input.isConfiguration = false)
    (lasting : strikes (history ++ [input]) = strikes history) :
    Recalls policy (history ++ [input]) next where
  policy_eq := backoff_eq ▸ recalls.policy_eq
  delivered_eq := by
    rw [delivered_eq, recalls.delivered_eq, List.any_append, List.any_cons, unconfigured]
    simp
  failures_eq _ := by rw [lasting, backoff_eq, recalls.failures_eq running]

/-- A driver that is terminated counts nothing any more. -/
theorem closed {next : SyncDriver} {input : DriverInput} (recalls : Recalls policy history driver)
    (kept : next.backoff.policy = driver.backoff.policy)
    (delivered_eq : next.delivered = driver.delivered)
    (unconfigured : input.isConfiguration = false) (ended : next.phase = .terminated) :
    Recalls policy (history ++ [input]) next where
  policy_eq := kept.trans recalls.policy_eq
  delivered_eq := by
    rw [delivered_eq, recalls.delivered_eq, List.any_append, List.any_cons, unconfigured]
    simp
  failures_eq running := absurd ended running

theorem not_isConfiguration_of_interruption {input : DriverInput} {message : String}
    (breaks : input.interruption? = some message) : input.isConfiguration = false := by
  cases input <;> first | rfl | cases breaks

/-- A driver hands out what is to be told of an input that it heeds. -/
theorem step (recalls : Recalls policy history driver) (draw : Binary64) {input : DriverInput}
    (expected : driver.phase.expects input = true) :
    (driver.step draw input).1.map (·.event) = report policy history input ∧
      Recalls policy (history ++ [input]) (driver.step draw input).2 := by
  have running : driver.phase ≠ .terminated := by
    intro terminated
    rw [terminated] at expected
    cases expected
  have stepping := driver.step_stepping draw input
  generalize driver.step draw input = result at stepping ⊢
  cases stepping with
  | ignores unexpected =>
    rw [unexpected] at expected
    cases expected
  | stops _ cancelled =>
    obtain rfl | ⟨rfl, -⟩ := cancelled <;> exact ⟨rfl, recalls.closed rfl rfl rfl rfl⟩
  | connects waiting =>
    exact ⟨rfl, recalls.unmoved running rfl rfl rfl (DriverInput.strikes_concat _ _)⟩
  | opens connecting =>
    exact ⟨rfl, recalls.unmoved running rfl rfl rfl (DriverInput.strikes_concat _ _)⟩
  | @hears message streaming =>
    have hstrikes := DriverInput.strikes_concat history (.message message)
    cases message with
    | configuration payload =>
      refine ⟨?_, recalls.policy_eq, ?_, fun _ => ?_⟩
      · simp only [receive, report, recalls.delivered_eq]
        rfl
      · simp [receive, DriverInput.isConfiguration]
      · rw [hstrikes]
        rfl
    | heartbeat =>
      refine ⟨rfl, recalls.policy_eq, ?_, fun _ => ?_⟩
      · simp [receive, DriverInput.isConfiguration, recalls.delivered_eq]
      · rw [hstrikes]
        rfl
    | degraded reason => exact ⟨rfl, recalls.unmoved running rfl rfl rfl hstrikes⟩
  | @retries _ message delay backoff attached breaks again =>
    obtain ⟨tolerated, failures_eq, policy_eq⟩ := Backoff.next_eq_some again
    have unconfigured := not_isConfiguration_of_interruption breaks
    rw [recalls.counted_eq running] at tolerated failures_eq
    rw [recalls.policy_eq] at tolerated policy_eq
    refine ⟨?_, policy_eq, ?_, fun _ => ?_⟩
    · rw [DriverInput.report_of_interruption breaks, DriverInput.setback, if_neg tolerated]
      rfl
    · simp [recalls.delivered_eq, unconfigured]
    · rw [(DriverInput.strikes_openings_concat_of_interruption breaks history).1, failures_eq]
      rfl
  | @givesUp _ message backoff attached breaks exhausted =>
    obtain ⟨spent, failures_eq, policy_eq⟩ := Backoff.next_eq_none exhausted
    rw [recalls.counted_eq running] at spent failures_eq
    rw [recalls.policy_eq] at spent
    refine ⟨?_, recalls.closed policy_eq rfl (not_isConfiguration_of_interruption breaks) rfl⟩
    rw [DriverInput.report_of_interruption breaks, DriverInput.setback, if_pos spent, failures_eq]
    rfl
  | refuses attached final uncancelled =>
    refine ⟨?_, recalls.closed rfl rfl rfl rfl⟩
    rw [DriverInput.report_of_refusal final uncancelled]
    rfl

end Recalls

/-- What a driver hands out in a run is what is to be told of the inputs that it heeded. -/
theorem events_run {policy : RetryPolicy} {history : List DriverInput}
    (recalls : Recalls policy history driver) (turns : List Turn) :
    (driver.run turns).1.map (·.event) = reports policy history (driver.heeded turns) ∧
      Recalls policy (history ++ driver.heeded turns) (driver.run turns).2 := by
  induction turns generalizing driver history with
  | nil =>
    rw [heeded, List.append_nil]
    exact ⟨rfl, recalls⟩
  | cons turn turns ih =>
    rw [heeded, run_cons]
    by_cases expected : driver.phase.expects turn.2 = true
    · obtain ⟨hevent, hstep⟩ := recalls.step turn.1 expected
      obtain ⟨hevents, hrun⟩ := ih hstep
      rw [List.filter_cons, if_pos expected, List.filter_nil, List.singleton_append]
      refine ⟨?_, List.append_cons .. ▸ hrun⟩
      rw [reports, List.map_append, hevents, ← hevent]
      cases (driver.step turn.1 turn.2).1 <;> rfl
    · rw [step_of_unexpected (Bool.eq_false_iff.2 expected), List.filter_cons, if_neg expected,
        List.filter_nil, List.nil_append]
      exact ih recalls

theorem heeded_append (driver : SyncDriver) (xs ys : List Turn) :
    driver.heeded (xs ++ ys) = driver.heeded xs ++ (driver.run xs).2.heeded ys := by
  induction xs generalizing driver with
  | nil => rfl
  | cons x xs ih => rw [List.cons_append, heeded, heeded, ih, List.append_assoc, run_cons]

/-- A driver is terminated only after it reported a fatal failure or heeded a cancellation. -/
theorem fatal_or_cancelled_of_terminated {driver : SyncDriver} {turns : List Turn}
    (running : driver.phase ≠ .terminated) (ended : (driver.run turns).2.phase = .terminated) :
    (∃ earlier message, (driver.run turns).1 = earlier ++ [.fatal message]) ∨
      ∃ earlier last, driver.heeded turns = earlier ++ [last] ∧ last.isCancellation = true := by
  obtain ⟨earlier, turn, later, rfl, ends, ⟨cancelled, -⟩ | ⟨message, reported⟩⟩ :=
    run_ending running ended
  · refine .inr ⟨driver.heeded earlier, turn.2, ?_, cancelled⟩
    -- The turn ends the run, so it was expected, and nothing is heeded behind it.
    have hended : ((driver.run earlier).2.step turn.1 turn.2).2.phase = .terminated := by
      have h := ends.ended
      rw [run_append] at h
      exact h
    have expected : (driver.run earlier).2.phase.expects turn.2 = true := by
      refine Decidable.byContradiction fun unexpected => ?_
      rw [step_of_unexpected (Bool.eq_false_iff.2 unexpected)] at hended
      exact ends.running hended
    rw [heeded_append, heeded, heeded_of_terminated hended, List.filter_cons, if_pos expected]
    rfl
  · exact .inl ⟨_, message, reported⟩

end SyncDriver

end FeatureFlags
