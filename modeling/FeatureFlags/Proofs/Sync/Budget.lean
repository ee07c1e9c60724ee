import FeatureFlags.Proofs.Sync.Account

/-!
# The retry budget

A driver goes on after as many failures in a row as its policy tolerates. They are reported as ones
that may pass, and each is followed by another session. The next one is fatal. Each session in which
the source shows no life is a failure more (`afterFailures_sessions`), so such a source is given up
after finitely many of them (`retry_budget`).
-/

namespace FeatureFlags

/-- How a session goes. -/
inductive SessionCourse where
  /-- It cannot be opened. -/
  | refused (error : SyncError)
  /-- It is opened and delivers some messages, and then it fails or ends. -/
  | held (messages : List SyncMessage) (failure : Option SyncError)

/-- What happens to a driver in the course of a session. -/
def SessionCourse.inputs : SessionCourse → List DriverInput
  | refused error => [.waited, .failed error]
  | held messages failure =>
    .waited :: .opened :: (messages.map .message ++ [failure.elim .ended .failed])

namespace SyncDriver

open DriverInput (strikes)

variable {driver : SyncDriver} {input : DriverInput}

/-- As soon as its wait is over, a driver opens the next session. -/
theorem head?_heeded_of_waiting {delay : Duration} (waiting : driver.phase = .waiting delay)
    {turns : List Turn} (uncancelled : ∀ turn ∈ turns, turn.2.isCancellation = false)
    (passed : .waited ∈ turns.map (·.2)) : (driver.heeded turns).head? = some .waited := by
  induction turns with
  | nil => cases passed
  | cons turn turns ih =>
    obtain ⟨draw, input⟩ := turn
    have hinput := uncancelled _ List.mem_cons_self
    by_cases h : input = .waited
    · subst h
      rw [heeded, waiting]
      rfl
    · have unexpected : driver.phase.expects input = false := by
        rw [waiting]
        cases input <;> first | rfl | exact absurd rfl h | cases hinput
      rw [heeded, step_of_unexpected unexpected, List.filter_cons, unexpected]
      refine ih (fun turn hturn => uncancelled turn (List.mem_cons_of_mem _ hturn)) ?_
      exact (List.mem_cons.1 passed).resolve_left (Ne.symm h)

/-- The driver never does anything again: it hands out nothing, and opens no session. -/
def IsOver (driver : SyncDriver) : Prop :=
  ∀ later, driver.run later = ([], driver) ∧ driver.heeded later = []

theorem isOver_of_terminated (terminated : driver.phase = .terminated) : driver.IsOver :=
  fun later => ⟨run_of_terminated terminated later, heeded_of_terminated terminated later⟩

/-- Where a driver stands after some failures in a row: it waits for the next session, unless it
has given up. -/
def AfterFailures (policy : RetryPolicy) (failures : Nat) (driver : SyncDriver) : Prop :=
  driver.phase = .terminated ∨
    (∃ delay, driver.phase = .waiting delay) ∧ driver.backoff.policy = policy ∧
      driver.backoff.failures = failures

variable {policy : RetryPolicy}

theorem afterFailures_retry (below : policy.maxRetries.toNat < 0xFFFFFFFF)
    (policy_eq : driver.backoff.policy = policy) (message : String) (draw : Binary64) :
    AfterFailures policy (driver.backoff.failures + 1) (driver.retry message draw).2 := by
  subst policy_eq
  rcases Nat.lt_or_ge driver.backoff.failures driver.backoff.policy.maxRetries.toNat with
    tolerated | spent
  · obtain ⟨delay, hretry⟩ := retry_of_lt tolerated message draw
    rw [hretry]
    exact .inr ⟨⟨delay, rfl⟩, rfl, rfl⟩
  · rw [retry, Backoff.next_of_le spent below draw]
    exact .inl rfl

/-- A session that could not be opened, broke off or ended is a failure more. -/
theorem afterFailures_step (driver : SyncDriver) (below : policy.maxRetries.toNat < 0xFFFFFFFF)
    (policy_eq : driver.backoff.policy = policy)
    (expected : driver.phase.expects input = true) (uncancelled : input.isCancellation = false)
    (breaks : input = .ended ∨ ∃ error, input = .failed error) (draw : Binary64) :
    AfterFailures policy (driver.backoff.failures + 1) (driver.step draw input).2 := by
  cases hinterruption : input.interruption? with
  | some message =>
    rw [step_interruption expected hinterruption draw]
    exact afterFailures_retry below policy_eq message draw
  | none =>
    obtain rfl | ⟨error, rfl⟩ := breaks
    · cases hinterruption
    · have attached := attached_of_failed expected
      have final : error.isRetryable = false := by
        cases h : error.isRetryable <;> simp_all [DriverInput.interruption?]
      have hcancelled : error ≠ .cancelled := by
        rintro rfl
        cases uncancelled
      rw [step_refusal attached final hcancelled draw]
      exact .inl rfl

/-- Messages that show no life change nothing. -/
theorem run_of_degraded (driver : SyncDriver) (streaming : driver.phase = .streaming)
    {turns : List Turn} {messages : List SyncMessage}
    (delivered : turns.map (·.2) = messages.map .message)
    (silent : ∀ message ∈ messages, (DriverInput.message message).showsLife = false) :
    (driver.run turns).2 = driver := by
  induction turns generalizing messages with
  | nil => rfl
  | cons turn turns ih =>
    obtain ⟨draw, input⟩ := turn
    cases messages with
    | nil => cases delivered
    | cons message messages =>
      obtain ⟨rfl, hrest⟩ := List.cons_eq_cons.1 delivered
      have hmessage := silent message List.mem_cons_self
      have hstep : (driver.step draw (.message message)).2 = driver := by
        unfold step
        rw [streaming]
        cases message with
        | configuration payload => cases hmessage
        | degraded reason => rfl
        | heartbeat => cases hmessage
      rw [run_cons, hstep]
      exact ih hrest fun message h => silent message (List.mem_cons_of_mem _ h)

/-- What comes of a session that cannot be opened is decided by the attempt. -/
theorem run_of_refused {delay : Duration} (waiting : driver.phase = .waiting delay)
    {error : SyncError} {turns : List Turn}
    (happened : turns.map (·.2) = (SessionCourse.refused error).inputs) :
    ∃ draw, (driver.run turns).2 =
      ({ driver with phase := .connecting }.step draw (.failed error)).2 := by
  obtain ⟨⟨draw, _⟩, failing, rfl, rfl, hfailing⟩ := List.map_eq_cons_iff.1 happened
  obtain ⟨⟨draw', _⟩, rest, rfl, rfl, hrest⟩ := List.map_eq_cons_iff.1 hfailing
  cases List.map_eq_nil_iff.1 hrest
  refine ⟨draw', ?_⟩
  rw [run_cons, step_waited waiting]
  rfl

/-- What comes of a session that shows no life is decided by its end. -/
theorem run_of_held {delay : Duration} (waiting : driver.phase = .waiting delay)
    {messages : List SyncMessage} {failure : Option SyncError} {turns : List Turn}
    (happened : turns.map (·.2) = (SessionCourse.held messages failure).inputs)
    (silent : ∀ message ∈ messages, (DriverInput.message message).showsLife = false) :
    ∃ draw, (driver.run turns).2 =
      ({ driver with phase := .streaming }.step draw (failure.elim .ended .failed)).2 := by
  obtain ⟨⟨draw, _⟩, opening, rfl, rfl, hopening⟩ := List.map_eq_cons_iff.1 happened
  obtain ⟨⟨draw', _⟩, rest, rfl, rfl, hrest⟩ := List.map_eq_cons_iff.1 hopening
  obtain ⟨during, closing, rfl, hduring, hclosing⟩ := List.map_eq_append_iff.1 hrest
  obtain ⟨⟨draw'', _⟩, after, rfl, rfl, hafter⟩ := List.map_eq_cons_iff.1 hclosing
  cases List.map_eq_nil_iff.1 hafter
  refine ⟨draw'', ?_⟩
  rw [run_cons, step_waited waiting]
  -- The session is open by now, and stays so until its end.
  refine congrArg (·.2) (run_append { driver with phase := .streaming } during _) |>.trans ?_
  rw [run_of_degraded _ rfl hduring silent]
  rfl

/-- A session in which the source shows no life is a failure more. -/
theorem afterFailures_course (below : policy.maxRetries.toNat < 0xFFFFFFFF) {failures : Nat}
    (standing : AfterFailures policy failures driver) {course : SessionCourse}
    (silent : ∀ input ∈ course.inputs, input.showsLife = false ∧ input.isCancellation = false)
    {turns : List Turn} (happened : turns.map (·.2) = course.inputs) :
    AfterFailures policy (failures + 1) (driver.run turns).2 := by
  obtain terminated | ⟨⟨delay, waiting⟩, policy_eq, rfl⟩ := standing
  · rw [run_of_terminated terminated]
    exact .inl terminated
  cases course with
  | refused error =>
    obtain ⟨draw, hrun⟩ := run_of_refused waiting happened
    have uncancelled := (silent (.failed error) (.tail _ (.head _))).2
    rw [hrun]
    exact afterFailures_step { driver with phase := .connecting } below policy_eq rfl uncancelled
      (.inr ⟨error, rfl⟩) draw
  | held messages failure =>
    have hmessages : ∀ message ∈ messages, (DriverInput.message message).showsLife = false :=
      fun message h => (silent _ (.tail _ (.tail _ (List.mem_append_left _
        (List.mem_map_of_mem h))))).1
    obtain ⟨draw, hrun⟩ := run_of_held waiting happened hmessages
    have uncancelled := (silent (failure.elim .ended .failed)
      (.tail _ (.tail _ (List.mem_append_right _ (List.mem_singleton_self _))))).2
    rw [hrun]
    cases failure with
    | none =>
      exact afterFailures_step { driver with phase := .streaming } below policy_eq rfl uncancelled
        (.inl rfl) draw
    | some error =>
      exact afterFailures_step { driver with phase := .streaming } below policy_eq rfl uncancelled
        (.inr ⟨error, rfl⟩) draw

/-- So each of the sessions in which the source shows no life is a failure more. -/
theorem afterFailures_sessions (below : policy.maxRetries.toNat < 0xFFFFFFFF) {failures : Nat}
    (standing : AfterFailures policy failures driver) {sessions : List SessionCourse}
    (silent : ∀ input ∈ sessions.flatMap SessionCourse.inputs,
      input.showsLife = false ∧ input.isCancellation = false)
    {turns : List Turn} (happened : turns.map (·.2) = sessions.flatMap SessionCourse.inputs) :
    AfterFailures policy (failures + sessions.length) (driver.run turns).2 := by
  induction sessions generalizing driver failures turns with
  | nil =>
    cases List.map_eq_nil_iff.1 happened
    exact standing
  | cons course sessions ih =>
    obtain ⟨first, others, rfl, hfirst, hothers⟩ := List.map_eq_append_iff.1 happened
    rw [List.flatMap_cons] at silent
    have hcourse := afterFailures_course below standing
      (fun input h => silent input (List.mem_append_left _ h)) hfirst
    rw [run_append, List.length_cons, Nat.add_comm sessions.length, ← Nat.add_assoc]
    exact ih hcourse (fun input h => silent input (List.mem_append_right _ h)) hothers

/-- A driver has the budget that its policy gives it. Say that the driver is told of a failure of
its session that may pass. If the failures in a row before it are fewer than the policy tolerates,
then the failure is reported as one that may pass, and the next session is opened as soon as the
wait is over. If they are as many, then the driver gives up, and never does anything again. More
they cannot be. A failure that will not pass is fatal at once, however many there were. So a source
that shows no life in any of its sessions is asked for one session more than the policy tolerates
failures, at most, and after so many sessions the run is over. -/
theorem retry_budget (policy : RetryPolicy) (below : policy.maxRetries.toNat < 0xFFFFFFFF) :
    let start := ofPolicy policy
    let tolerated := policy.maxRetries.toNat
    (∀ (turns : List Turn) (draw : Binary64) (input : DriverInput) (message : String),
      let reached := (start.run turns).2
      let failures := strikes (start.heeded turns)
      let stepped := reached.step draw input
      reached.phase.expects input = true → input.interruption? = some message →
        failures ≤ tolerated ∧
        (failures < tolerated →
          stepped.1 = some (.transient message) ∧
          ∀ later : List Turn, (∀ turn ∈ later, turn.2.isCancellation = false) →
            .waited ∈ later.map (·.2) → (stepped.2.heeded later).head? = some .waited) ∧
        (failures = tolerated →
          stepped.1 = some (.fatal
            ("gave up after " ++ toString tolerated ++ " reconnect attempts: " ++ message)) ∧
          stepped.2.IsOver)) ∧
    (∀ (turns : List Turn) (draw : Binary64) (error : SyncError),
      let reached := (start.run turns).2
      let stepped := reached.step draw (.failed error)
      reached.phase.isAttached = true → error.isRetryable = false → error ≠ .cancelled →
        stepped.1 = some (.fatal error.message) ∧ stepped.2.IsOver) ∧
    (∀ (sessions : List SessionCourse) (turns : List Turn),
      turns.map (·.2) = sessions.flatMap SessionCourse.inputs →
      (∀ input ∈ turns.map (·.2), input.showsLife = false ∧ input.isCancellation = false) →
        (start.heeded turns).count .waited ≤ tolerated + 1 ∧
        (tolerated < sessions.length →
          (start.run turns).2.IsOver ∧
          ∃ earlier message, (start.run turns).1 = earlier ++ [.fatal message])) := by
  intro start tolerated
  have htallied : ∀ turns, Tallied policy (start.heeded turns) (start.run turns).2 :=
    fun turns => tallied_run below (.start policy) turns
  refine ⟨fun turns draw input message => ?_, fun turns draw error => ?_,
    fun sessions turns happened silent => ⟨?_, fun many => ?_⟩⟩
  · intro reached failures stepped expected breaks
    have running : reached.phase ≠ .terminated :=
      running_of_isAttached (attached_of_interruption expected breaks)
    have hpolicy : reached.backoff.policy = policy := (htallied turns).policy_eq
    have hfailures : reached.backoff.failures = failures := (htallied turns).failures_eq running
    have hstepped : stepped = _ := step_interruption expected breaks draw
    refine ⟨(htallied turns).strikes_le running, fun fewer => ?_, fun spent => ?_⟩
    · have tolerates : reached.backoff.failures < reached.backoff.policy.maxRetries.toNat := by
        rw [hpolicy, hfailures]
        exact fewer
      obtain ⟨delay, hretry⟩ := retry_of_lt tolerates message draw
      rw [hretry] at hstepped
      rw [hstepped]
      exact ⟨rfl, fun later uncancelled passed => head?_heeded_of_waiting rfl uncancelled passed⟩
    · have exhausted : reached.backoff.failures = reached.backoff.policy.maxRetries.toNat := by
        rw [hpolicy, hfailures]
        exact spent
      have hretry := retry_of_eq exhausted (hpolicy ▸ below) message draw
      rw [hretry, hfailures, spent] at hstepped
      rw [hstepped]
      exact ⟨rfl, isOver_of_terminated rfl⟩
  · intro reached stepped attached final uncancelled
    have hstepped : stepped = _ := step_refusal attached final uncancelled draw
    rw [hstepped]
    exact ⟨rfl, isOver_of_terminated rfl⟩
  · have hsilent : ∀ input ∈ start.heeded turns, input.showsLife = false :=
      fun input h => (silent input (mem_of_mem_heeded h)).1
    rw [← DriverInput.openings_of_silent hsilent]
    exact (htallied turns).openings_le
  · rw [happened] at silent
    have ended : (start.run turns).2.phase = .terminated := by
      refine Decidable.byContradiction fun running => ?_
      have hstanding : AfterFailures policy 0 start := .inr ⟨⟨_, rfl⟩, rfl, rfl⟩
      obtain terminated | ⟨-, -, hfailures⟩ :=
        afterFailures_sessions below hstanding silent happened
      · exact running terminated
      · have hle := (htallied turns).strikes_le running
        rw [← (htallied turns).failures_eq running, hfailures, Nat.zero_add] at hle
        exact Nat.not_lt_of_le hle many
    refine ⟨isOver_of_terminated ended, ?_⟩
    have running : start.phase ≠ .terminated := nofun
    obtain ⟨before, turn, after, hturns, -, ⟨cancelled, -⟩ | ⟨message, reported⟩⟩ :=
      run_ending running ended
    · have hmem : turn.2 ∈ turns.map (·.2) := by
        rw [hturns]
        exact List.mem_map_of_mem (List.mem_append_right _ List.mem_cons_self)
      rw [happened] at hmem
      rw [(silent _ hmem).2] at cancelled
      cases cancelled
    · exact ⟨_, message, reported⟩

/-- With one retry, a session that delivers a configuration makes the count start anew; a source
that cannot be reached and then only says that it is unwell is given up after two sessions. -/
theorem retry_budget_one_retry :
    let policy : RetryPolicy := { maxRetries := 1 }
    let start := ofPolicy policy
    let drawn : List DriverInput → List Turn := List.map (Binary64.zero, ·)
    let refusal : DriverInput := .failed (.connect "refused")
    let live := drawn
      [.waited, refusal, .waited, .opened, .message (.configuration ⟨.full "", none, ∅⟩)]
    let stepped := fun turns => (start.run turns).2.step .zero refusal
    let sessions : List SessionCourse :=
      [.refused (.connect "refused"), .held [.degraded "slow"] none]
    let silent := drawn (sessions.flatMap SessionCourse.inputs)
    policy.maxRetries.toNat < 0xFFFFFFFF ∧
      (stepped live).1 = some (.transient "Failed to connect to sync server: refused") ∧
      (stepped (live ++ drawn [.ended, .waited])).1 = some (.fatal
        "gave up after 1 reconnect attempts: Failed to connect to sync server: refused") ∧
      (stepped (live ++ drawn [.ended, .waited])).2.IsOver ∧
      (start.heeded silent).count .waited ≤ 2 ∧ (start.run silent).2.IsOver := by
  intro policy start drawn refusal live stepped sessions silent
  obtain ⟨hfailures, -, hsessions⟩ := retry_budget policy (by decide)
  obtain ⟨-, hpasses, -⟩ := hfailures live .zero refusal _ (by decide +kernel) rfl
  obtain ⟨-, -, hgivesUp⟩ := hfailures (live ++ drawn [.ended, .waited]) .zero refusal _
    (by decide +kernel) rfl
  obtain ⟨hopenings, hover⟩ := hsessions sessions silent rfl (by decide +kernel)
  obtain ⟨hfatal, hnothing⟩ := hgivesUp (by decide +kernel)
  exact ⟨by decide, (hpasses (by decide +kernel)).1, hfatal.trans (by decide +kernel), hnothing,
    hopenings, (hover (by decide)).1⟩

end SyncDriver

end FeatureFlags
