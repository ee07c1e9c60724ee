import FeatureFlags.Proofs.Sync.Run

/-!
# The account that a driver keeps

Which failures are in a row is read off the history of a driver, apart from the count that it keeps:
`heeded` lists what happened to the driver and was expected in its phase, and `strikes` counts in
such a list the sessions that could not be opened, broke off or ended since the source last showed
life. What a driver keeps account of is what happened to it (`tallied_run`).
-/

namespace FeatureFlags

namespace DriverInput

/-- Whether the input shows that the source is well. -/
def showsLife : DriverInput → Bool
  | message (.configuration _) => true
  | message .heartbeat => true
  | _ => false

/-- What happened since the source last showed life, the last one first. -/
def sinceLife (inputs : List DriverInput) : List DriverInput :=
  inputs.reverse.takeWhile fun input => !input.showsLife

/-- The sessions that could not be opened, broke off or ended since the source last showed life. -/
def strikes (inputs : List DriverInput) : Nat :=
  (sinceLife inputs).countP fun input => input.interruption?.isSome

/-- The sessions that were asked for since the source last showed life. -/
def openings (inputs : List DriverInput) : Nat := (sinceLife inputs).count .waited

theorem sinceLife_concat (inputs : List DriverInput) (input : DriverInput) :
    sinceLife (inputs ++ [input]) = if input.showsLife then [] else input :: sinceLife inputs := by
  unfold sinceLife
  rw [List.reverse_concat, List.takeWhile_cons]
  cases input.showsLife <;> rfl

theorem strikes_concat (inputs : List DriverInput) (input : DriverInput) :
    strikes (inputs ++ [input]) =
      if input.showsLife then 0 else strikes inputs + input.interruption?.isSome.toNat := by
  unfold strikes
  rw [sinceLife_concat]
  split
  · rfl
  · rw [List.countP_cons]
    cases input.interruption?.isSome <;> rfl

theorem openings_concat (inputs : List DriverInput) (input : DriverInput) :
    openings (inputs ++ [input]) =
      if input.showsLife then 0 else openings inputs + if input = .waited then 1 else 0 := by
  unfold openings
  rw [sinceLife_concat]
  split
  · rfl
  · simp only [List.count_cons, beq_iff_eq]

theorem openings_of_silent {inputs : List DriverInput}
    (silent : ∀ input ∈ inputs, input.showsLife = false) :
    openings inputs = inputs.count .waited := by
  have hall : sinceLife inputs = inputs.reverse := by
    have hsilent : ∀ input ∈ inputs.reverse, (!input.showsLife) = true := fun input h => by
      rw [silent input (List.mem_reverse.1 h)]
      rfl
    rw [sinceLife, ← List.append_nil inputs.reverse, List.takeWhile_append_of_pos hsilent,
      List.takeWhile_nil]
  rw [openings, hall, List.count_reverse]

/-- A failure is neither a sign of life nor the end of a wait. -/
theorem strikes_openings_concat_of_interruption {input : DriverInput} {message : String}
    (breaks : input.interruption? = some message) (inputs : List DriverInput) :
    strikes (inputs ++ [input]) = strikes inputs + 1 ∧
      openings (inputs ++ [input]) = openings inputs := by
  rw [strikes_concat, openings_concat, breaks]
  cases input with
  | failed error => exact ⟨rfl, rfl⟩
  | ended => exact ⟨rfl, rfl⟩
  | waited => cases breaks
  | opened => cases breaks
  | message delivered => cases breaks
  | cancelled => cases breaks

end DriverInput

namespace SyncDriver

open DriverInput (strikes openings)

variable {driver : SyncDriver} {draw : Binary64} {input : DriverInput} {message : String}

/-- What happened to the driver and was expected in its phase. -/
def heeded : SyncDriver → List Turn → List DriverInput
  | _, [] => []
  | driver, turn :: turns =>
    [turn.2].filter driver.phase.expects ++ (driver.step turn.1 turn.2).2.heeded turns

theorem heeded_of_terminated (terminated : driver.phase = .terminated) (turns : List Turn) :
    driver.heeded turns = [] := by
  induction turns with
  | nil => rfl
  | cons turn turns ih =>
    rw [heeded, step_of_terminated terminated, ih, terminated]
    rfl

theorem mem_of_mem_heeded {turns : List Turn} (h : input ∈ driver.heeded turns) :
    input ∈ turns.map (·.2) := by
  induction turns generalizing driver with
  | nil => exact h
  | cons turn turns ih =>
    rcases List.mem_append.1 h with h | h
    · exact List.mem_cons.2 (.inl (List.mem_singleton.1 (List.mem_filter.1 h).1))
    · exact List.mem_cons_of_mem _ (ih h)

/-- What the account of a driver has to do with what happened to it. -/
structure Tallied (policy : RetryPolicy) (history : List DriverInput) (driver : SyncDriver) :
    Prop where
  policy_eq : driver.backoff.policy = policy
  failures_eq : driver.phase ≠ .terminated → driver.backoff.failures = strikes history
  strikes_le : driver.phase ≠ .terminated → strikes history ≤ policy.maxRetries.toNat
  openings_le : openings history ≤ policy.maxRetries.toNat + 1
  /-- Each session but the first one since the source last showed life follows a failure. -/
  openings_le_strikes : driver.phase ≠ .terminated →
    openings history ≤ strikes history + driver.phase.isAttached.toNat

namespace Tallied

variable {policy : RetryPolicy} {history : List DriverInput}

theorem start (policy : RetryPolicy) : Tallied policy [] (ofPolicy policy) :=
  ⟨rfl, fun _ => rfl, fun _ => Nat.zero_le _, Nat.zero_le _, fun _ => Nat.zero_le _⟩

/-- An account of a driver that goes on, in which the bound on the sessions need not be given. -/
theorem ongoing (policy_eq : driver.backoff.policy = policy)
    (failures_eq : driver.backoff.failures = strikes history)
    (strikes_le : strikes history ≤ policy.maxRetries.toNat)
    (openings_le_strikes : openings history ≤ strikes history + driver.phase.isAttached.toNat) :
    Tallied policy history driver where
  policy_eq := policy_eq
  failures_eq _ := failures_eq
  strikes_le _ := strikes_le
  openings_le :=
    Nat.le_trans openings_le_strikes (Nat.add_le_add strikes_le (Bool.toNat_le _))
  openings_le_strikes _ := openings_le_strikes

/-- An account that is closed. -/
theorem closed (tallied : Tallied policy history driver) {last : SyncDriver}
    (kept : last.backoff.policy = driver.backoff.policy) (ended : last.phase = .terminated)
    (unopened : openings (history ++ [input]) = openings history) :
    Tallied policy (history ++ [input]) last where
  policy_eq := kept.trans tallied.policy_eq
  failures_eq running := absurd ended running
  strikes_le running := absurd ended running
  openings_le := unopened ▸ tallied.openings_le
  openings_le_strikes running := absurd ended running

theorem step (below : policy.maxRetries.toNat < 0xFFFFFFFF)
    (tallied : Tallied policy history driver) (draw : Binary64) (input : DriverInput) :
    Tallied policy (history ++ [input].filter driver.phase.expects)
      (driver.step draw input).2 := by
  by_cases expected : driver.phase.expects input = true
  case neg =>
    rw [step_of_unexpected (Bool.eq_false_iff.2 expected), List.filter_cons, if_neg expected,
      List.filter_nil, List.append_nil]
    exact tallied
  have running : driver.phase ≠ .terminated := by
    intro terminated
    rw [terminated] at expected
    cases expected
  have hpolicy := tallied.policy_eq
  have hfailures := tallied.failures_eq running
  have hstrikes := tallied.strikes_le running
  have hopenings := tallied.openings_le_strikes running
  rw [List.filter_cons, if_pos expected, List.filter_nil]
  have stepping := driver.step_stepping draw input
  generalize driver.step draw input = result at stepping ⊢
  cases stepping with
  | ignores unexpected =>
    rw [unexpected] at expected
    cases expected
  | stops _ cancelled =>
    refine tallied.closed rfl rfl ?_
    obtain rfl | ⟨rfl, -⟩ := cancelled <;> exact DriverInput.openings_concat _ _
  | connects waiting =>
    have hs : strikes (history ++ [.waited]) = strikes history := DriverInput.strikes_concat _ _
    have ho : openings (history ++ [.waited]) = openings history + 1 :=
      DriverInput.openings_concat _ _
    rw [waiting] at hopenings
    refine ongoing hpolicy (hs ▸ hfailures) (hs ▸ hstrikes) ?_
    rw [hs, ho]
    exact Nat.add_le_add_right hopenings 1
  | opens connecting =>
    have hs : strikes (history ++ [.opened]) = strikes history := DriverInput.strikes_concat _ _
    have ho : openings (history ++ [.opened]) = openings history := DriverInput.openings_concat _ _
    rw [connecting] at hopenings
    refine ongoing hpolicy (hs ▸ hfailures) (hs ▸ hstrikes) ?_
    rw [hs, ho]
    exact hopenings
  | @hears message streaming =>
    have hs := DriverInput.strikes_concat history (.message message)
    have ho := DriverInput.openings_concat history (.message message)
    cases message with
    | configuration payload =>
      exact ongoing hpolicy hs.symm (hs ▸ Nat.zero_le _) (ho ▸ Nat.zero_le _)
    | heartbeat =>
      exact ongoing hpolicy hs.symm (hs ▸ Nat.zero_le _) (ho ▸ Nat.zero_le _)
    | degraded reason =>
      exact ongoing hpolicy (hs ▸ hfailures) (hs ▸ hstrikes) (hs ▸ ho ▸ hopenings)
  | @retries _ message delay backoff attached breaks again =>
    obtain ⟨hs, ho⟩ := DriverInput.strikes_openings_concat_of_interruption breaks history
    have tolerated : driver.backoff.failures < driver.backoff.policy.maxRetries.toNat := by
      refine Nat.lt_of_not_le fun spent => ?_
      rw [Backoff.next_of_le spent (hpolicy ▸ below) draw] at again
      cases again
    obtain ⟨delay, hnext⟩ := Backoff.next_of_lt tolerated draw
    rw [hnext] at again
    cases again
    refine ongoing hpolicy (hs ▸ congrArg (· + 1) hfailures) ?_ ?_
    · rw [hs, ← hfailures]
      rw [hpolicy] at tolerated
      exact tolerated
    · rw [attached] at hopenings
      rw [hs, ho]
      exact hopenings
  | @givesUp _ message backoff attached breaks exhausted =>
    obtain ⟨-, ho⟩ := DriverInput.strikes_openings_concat_of_interruption breaks history
    refine tallied.closed ?_ rfl ho
    exact (congrArg (·.2.policy) exhausted).symm.trans (Backoff.policy_next _ _)
  | refuses attached final uncancelled =>
    exact tallied.closed rfl rfl (DriverInput.openings_concat _ _)

end Tallied

/-- A driver keeps account of what happened to it. -/
theorem tallied_run {policy : RetryPolicy} (below : policy.maxRetries.toNat < 0xFFFFFFFF)
    {history : List DriverInput} (tallied : Tallied policy history driver) (turns : List Turn) :
    Tallied policy (history ++ driver.heeded turns) (driver.run turns).2 := by
  induction turns generalizing driver history with
  | nil =>
    rw [heeded, List.append_nil]
    exact tallied
  | cons turn turns ih =>
    rw [heeded, ← List.append_assoc]
    exact ih (tallied.step below turn.1 turn.2)

end SyncDriver

end FeatureFlags
