import FeatureFlags.Proofs.Backoff.Schedule
import FeatureFlags.Sync.Driver

/-!
# Steps of the driver

`Stepping` lists all that a driver can do about an input, with the condition of each case
(`step_stepping`). A driver that is to go on after a failure waits; one that has nothing left to do
is terminated, and the event of a fatal failure is handed out only in the step that terminates it.

Where it is known which of these cases holds, an equation says what the step comes to: an input that
the driver does not expect does nothing (`step_of_unexpected`), a failure that may pass is retried
(`step_interruption`) as long as the policy tolerates it (`retry_of_lt`, `retry_of_eq`), and any
other failure is fatal (`step_refusal`).
-/

namespace FeatureFlags

namespace DriverPhase

/-- Whether a driver has to do with its source, so that it can fail. -/
def isAttached : DriverPhase → Bool
  | connecting => true
  | streaming => true
  | _ => false

/-- Whether a driver in the phase does something about an input. -/
def expects : DriverPhase → DriverInput → Bool
  | terminated, _ => false
  | _, .cancelled => true
  | waiting _, .waited => true
  | connecting, .opened => true
  | connecting, .failed _ => true
  | streaming, .failed _ => true
  | streaming, .message _ => true
  | streaming, .ended => true
  | _, _ => false

end DriverPhase

/-- The message of a failure that may pass, if the input is one. -/
def DriverInput.interruption? : DriverInput → Option String
  | failed error => if error.isRetryable then some error.message else none
  | ended => some "sync session ended"
  | _ => none

namespace SyncDriver

/-- All that a driver can do about an input. -/
inductive Stepping (driver : SyncDriver) (draw : Binary64) :
    DriverInput → Option Emission × SyncDriver → Prop
  | ignores {input : DriverInput} (unexpected : driver.phase.expects input = false) :
      Stepping driver draw input (none, driver)
  | stops {input : DriverInput} (running : driver.phase ≠ .terminated)
      (cancelled : input = .cancelled ∨
        input = .failed .cancelled ∧ driver.phase.isAttached = true) :
      Stepping driver draw input (none, driver.stop)
  | connects {delay : Duration} (waiting : driver.phase = .waiting delay) :
      Stepping driver draw .waited (none, { driver with phase := .connecting })
  | opens (connecting : driver.phase = .connecting) :
      Stepping driver draw .opened (none, { driver with phase := .streaming })
  | hears {message : SyncMessage} (streaming : driver.phase = .streaming) :
      Stepping driver draw (.message message)
        ((driver.receive message).1.map (⟨·, .streaming⟩), (driver.receive message).2)
  | retries {input : DriverInput} {message : String} {delay : Duration} {backoff : Backoff}
      (attached : driver.phase.isAttached = true) (breaks : input.interruption? = some message)
      (again : driver.backoff.next draw = (some delay, backoff)) :
      Stepping driver draw input (some ⟨.error ⟨message, false⟩, .disconnected⟩,
        { driver with backoff, phase := .waiting delay })
  | givesUp {input : DriverInput} {message : String} {backoff : Backoff}
      (attached : driver.phase.isAttached = true) (breaks : input.interruption? = some message)
      (exhausted : driver.backoff.next draw = (none, backoff)) :
      Stepping driver draw input
        (some ⟨.error ⟨"gave up after " ++ toString (backoff.failures - 1) ++
            " reconnect attempts: " ++ message, true⟩, .disconnected⟩,
          { driver with backoff, phase := .terminated })
  | refuses {error : SyncError} (attached : driver.phase.isAttached = true)
      (final : error.isRetryable = false) (uncancelled : error ≠ .cancelled) :
      Stepping driver draw (.failed error)
        (some ⟨.error ⟨error.message, true⟩, .disconnected⟩, driver.stop)

variable {driver : SyncDriver} {draw : Binary64}

theorem running_of_isAttached (attached : driver.phase.isAttached = true) :
    driver.phase ≠ .terminated := by
  intro h
  rw [h] at attached
  cases attached

@[simp] theorem phase_receive (driver : SyncDriver) (message : SyncMessage) :
    (driver.receive message).2.phase = driver.phase := by
  cases message <;> rfl

theorem retry_stepping {input : DriverInput} {message : String}
    (attached : driver.phase.isAttached = true) (breaks : input.interruption? = some message) :
    Stepping driver draw input
      (some ⟨(driver.retry message draw).1, .disconnected⟩, (driver.retry message draw).2) := by
  unfold retry
  split
  · rename_i delay backoff again
    exact .retries attached breaks again
  · rename_i backoff exhausted
    exact .givesUp attached breaks exhausted

theorem fail_stepping {error : SyncError} (attached : driver.phase.isAttached = true) :
    Stepping driver draw (.failed error)
      ((driver.fail error draw).1.map (⟨·, .disconnected⟩), (driver.fail error draw).2) := by
  unfold fail
  split
  · rename_i cancelled
    exact .stops (running_of_isAttached attached) (.inr ⟨congrArg _ cancelled, attached⟩)
  · rename_i uncancelled
    split
    · rename_i passing
      exact retry_stepping attached (if_pos passing)
    · rename_i final
      exact .refuses attached (Bool.eq_false_iff.2 final) uncancelled

theorem step_stepping (driver : SyncDriver) (draw : Binary64) (input : DriverInput) :
    Stepping driver draw input (driver.step draw input) := by
  unfold step
  dsimp only
  split
  · rename_i h
    exact .ignores (by rw [h]; rfl)
  · rename_i running
    exact .stops running (.inl rfl)
  · rename_i waiting
    exact .connects waiting
  · rename_i connecting
    exact .opens connecting
  · rename_i connecting
    exact fail_stepping (by rw [connecting]; rfl)
  · rename_i streaming
    exact .hears streaming
  · rename_i streaming
    exact fail_stepping (by rw [streaming]; rfl)
  · rename_i streaming
    exact retry_stepping (by rw [streaming]; rfl) rfl
  · refine .ignores ?_
    unfold DriverPhase.expects
    split <;> simp_all

end SyncDriver

/-! ## What a step comes to -/

/-- The report of a failure that may pass. -/
def Emission.transient (message : String) : Emission := ⟨.error ⟨message, false⟩, .disconnected⟩

/-- The report of a failure after which no further attempt is made. -/
def Emission.fatal (message : String) : Emission := ⟨.error ⟨message, true⟩, .disconnected⟩

namespace SyncDriver

variable {driver : SyncDriver} {draw : Binary64} {input : DriverInput} {message : String}

/-- What is not expected does nothing. -/
theorem step_of_unexpected (unexpected : driver.phase.expects input = false) :
    driver.step draw input = (none, driver) := by
  unfold step
  cases hphase : driver.phase <;> rw [hphase] at unexpected <;> cases input <;>
    first | rfl | cases unexpected

theorem attached_of_failed {error : SyncError}
    (expected : driver.phase.expects (.failed error) = true) : driver.phase.isAttached = true := by
  cases hphase : driver.phase <;> rw [hphase] at expected <;> first | rfl | cases expected

theorem attached_of_ended (expected : driver.phase.expects .ended = true) :
    driver.phase.isAttached = true := by
  cases hphase : driver.phase <;> rw [hphase] at expected <;> first | rfl | cases expected

theorem attached_of_interruption (expected : driver.phase.expects input = true)
    (breaks : input.interruption? = some message) : driver.phase.isAttached = true := by
  cases input with
  | failed error => exact attached_of_failed expected
  | ended => exact attached_of_ended expected
  | waited => cases breaks
  | opened => cases breaks
  | message delivered => cases breaks
  | cancelled => cases breaks

theorem step_failed (attached : driver.phase.isAttached = true) (error : SyncError) :
    driver.step draw (.failed error) =
      ((driver.fail error draw).1.map (⟨·, .disconnected⟩), (driver.fail error draw).2) := by
  unfold step
  cases hphase : driver.phase <;> rw [hphase] at attached <;> first | rfl | cases attached

/-- What the failure of a session that may pass makes of the driver. -/
theorem step_interruption (expected : driver.phase.expects input = true)
    (breaks : input.interruption? = some message) (draw : Binary64) :
    driver.step draw input =
      (some ⟨(driver.retry message draw).1, .disconnected⟩, (driver.retry message draw).2) := by
  have attached := attached_of_interruption expected breaks
  cases input with
  | failed error =>
    obtain ⟨passing, rfl⟩ : error.isRetryable = true ∧ error.message = message := by
      simpa [DriverInput.interruption?] using breaks
    have uncancelled : error ≠ .cancelled := by
      rintro rfl
      cases passing
    rw [step_failed attached, fail, if_neg uncancelled, if_pos passing]
    rfl
  | ended =>
    cases breaks
    unfold step
    cases hphase : driver.phase <;> rw [hphase] at expected <;> first | rfl | cases expected
  | waited => cases breaks
  | opened => cases breaks
  | message delivered => cases breaks
  | cancelled => cases breaks

/-- A failure that will not pass is fatal at once. -/
theorem step_refusal {error : SyncError} (attached : driver.phase.isAttached = true)
    (final : error.isRetryable = false) (uncancelled : error ≠ .cancelled) (draw : Binary64) :
    driver.step draw (.failed error) = (some (.fatal error.message), driver.stop) := by
  rw [step_failed attached, fail, if_neg uncancelled, final]
  rfl

/-- A failure that the policy tolerates is reported, and the driver waits. -/
theorem retry_of_lt
    (tolerated : driver.backoff.failures < driver.backoff.policy.maxRetries.toNat)
    (message : String) (draw : Binary64) :
    ∃ delay, driver.retry message draw = (.error ⟨message, false⟩,
      { driver with
        backoff := { driver.backoff with
          failures := driver.backoff.failures + 1
          lastDelay := delay }
        phase := .waiting delay }) := by
  obtain ⟨delay, hnext⟩ := Backoff.next_of_lt tolerated draw
  exact ⟨delay, by rw [retry, hnext]⟩

/-- The failure after the last one that the policy tolerates is fatal. -/
theorem retry_of_eq
    (spent : driver.backoff.failures = driver.backoff.policy.maxRetries.toNat)
    (below : driver.backoff.policy.maxRetries.toNat < 0xFFFFFFFF)
    (message : String) (draw : Binary64) :
    driver.retry message draw =
      (.error ⟨"gave up after " ++ toString driver.backoff.failures ++ " reconnect attempts: " ++
          message, true⟩,
        { driver with
          backoff := { driver.backoff with failures := driver.backoff.failures + 1 }
          phase := .terminated }) := by
  have hcount : Nat.min (driver.backoff.failures + 1) 0xFFFFFFFF = driver.backoff.failures + 1 :=
    Nat.min_eq_left (by omega)
  rw [retry, Backoff.next_of_le (Nat.le_of_eq spent.symm) below draw, hcount]
  rfl

theorem step_waited {delay : Duration} (waiting : driver.phase = .waiting delay) (draw : Binary64) :
    driver.step draw .waited = (none, { driver with phase := .connecting }) := by
  unfold step
  rw [waiting]

/-- A driver that is cancelled stops, and says nothing about it. -/
theorem step_cancelled (running : driver.phase ≠ .terminated) (draw : Binary64) :
    driver.step draw .cancelled = (none, driver.stop) := by
  unfold step
  cases hphase : driver.phase with
  | terminated => exact absurd hphase running
  | waiting delay => rfl
  | connecting => rfl
  | streaming => rfl

end SyncDriver

end FeatureFlags
