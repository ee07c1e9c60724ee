import FeatureFlags.Proofs.Sync.Steps
import FeatureFlags.Sync.Writer

/-!
# Runs of the driver

`run` goes through things that happen to a driver one after the other, and collects what the driver
hands out. A driver that is terminated does nothing more (`run_of_terminated`), and one that is not
has handed out nothing fatal (`not_fatal_run`). A run comes to its end in a single step
(`run_ending`): either a cancellation ends it, which is reported by nothing, or the last thing that
is handed out is a fatal failure.

Whatever a writer does until it has to wait is a run of its driver (`exists_run_of_settle`).
-/

namespace FeatureFlags

/-- Whether the event tells of a failure after which no further attempt is made. -/
def StorageEvent.isFatal : StorageEvent → Bool
  | error failure => failure.fatal
  | _ => false

/-- Whether the input tells the driver that nobody is interested any more. -/
def DriverInput.isCancellation : DriverInput → Bool
  | cancelled => true
  | failed .cancelled => true
  | _ => false

namespace SyncDriver

/-- Something that happens to a driver, with the draw for the wait that may follow. -/
abbrev Turn := Binary64 × DriverInput

/-- Things happen to the driver one after the other; what it hands out is collected. -/
def run : SyncDriver → List Turn → List Emission × SyncDriver
  | driver, [] => ([], driver)
  | driver, turn :: turns =>
    let (emission, driver) := driver.step turn.1 turn.2
    let (later, driver) := driver.run turns
    (emission.toList ++ later, driver)

variable {driver : SyncDriver} {draw : Binary64} {input : DriverInput}

theorem run_cons (driver : SyncDriver) (turn : Turn) (turns : List Turn) :
    driver.run (turn :: turns) =
      ((driver.step turn.1 turn.2).1.toList ++ ((driver.step turn.1 turn.2).2.run turns).1,
        ((driver.step turn.1 turn.2).2.run turns).2) := rfl

theorem run_append (driver : SyncDriver) (xs ys : List Turn) :
    driver.run (xs ++ ys) =
      ((driver.run xs).1 ++ ((driver.run xs).2.run ys).1, ((driver.run xs).2.run ys).2) := by
  induction xs generalizing driver with
  | nil => rfl
  | cons x xs ih => simp only [List.cons_append, run_cons, ih, List.append_assoc]

/-! ## The end of a run -/

theorem step_of_terminated (terminated : driver.phase = .terminated) (draw : Binary64)
    (input : DriverInput) : driver.step draw input = (none, driver) := by
  unfold step
  rw [terminated]

/-- A terminated driver does nothing more. -/
theorem run_of_terminated (terminated : driver.phase = .terminated) (turns : List Turn) :
    driver.run turns = ([], driver) := by
  induction turns with
  | nil => rfl
  | cons turn turns ih => rw [run_cons, step_of_terminated terminated, ih]; rfl

/-- A step after which the driver goes on hands out nothing fatal. -/
theorem not_fatal_step (running : (driver.step draw input).2.phase ≠ .terminated) :
    ∀ emission ∈ (driver.step draw input).1, emission.event.isFatal = false := by
  have stepping := driver.step_stepping draw input
  generalize driver.step draw input = result at stepping running ⊢
  cases stepping with
  | ignores unexpected => exact nofun
  | stops _ cancelled => exact nofun
  | connects waiting => exact nofun
  | opens connecting => exact nofun
  | @hears message streaming =>
    intro emission h
    obtain ⟨event, he, rfl⟩ := Option.map_eq_some_iff.1 h
    cases message with
    | configuration payload =>
      cases he
      dsimp only
      split <;> rfl
    | degraded reason => cases he; rfl
    | heartbeat => cases he
  | retries attached breaks again => rintro _ ⟨⟩; rfl
  | givesUp attached breaks exhausted => exact absurd rfl running
  | refuses attached final uncancelled => exact absurd rfl running

/-- A step ends the run because of a cancellation, about which it says nothing, or because of a
failure, which it reports. -/
theorem step_ending (running : driver.phase ≠ .terminated)
    (ended : (driver.step draw input).2.phase = .terminated) :
    input.isCancellation = true ∧ (driver.step draw input).1 = none ∨
      ∃ message, (driver.step draw input).1 = some (.fatal message) := by
  have stepping := driver.step_stepping draw input
  generalize driver.step draw input = result at stepping ended ⊢
  cases stepping with
  | ignores unexpected => exact absurd ended running
  | stops _ cancelled =>
    obtain rfl | ⟨rfl, -⟩ := cancelled
    · exact .inl ⟨rfl, rfl⟩
    · exact .inl ⟨rfl, rfl⟩
  | connects waiting => cases ended
  | opens connecting => cases ended
  | hears streaming =>
    rw [phase_receive] at ended
    exact absurd ended running
  | retries attached breaks again => cases ended
  | givesUp attached breaks exhausted => exact .inr ⟨_, rfl⟩
  | refuses attached final uncancelled => exact .inr ⟨_, rfl⟩

/-- A driver that is not terminated has handed out nothing fatal. -/
theorem not_fatal_run {turns : List Turn} (running : (driver.run turns).2.phase ≠ .terminated) :
    ∀ emission ∈ (driver.run turns).1, emission.event.isFatal = false := by
  induction turns generalizing driver with
  | nil => exact nofun
  | cons turn turns ih =>
    rw [run_cons] at running ⊢
    have hstep : (driver.step turn.1 turn.2).2.phase ≠ .terminated := by
      intro ended
      rw [run_of_terminated ended] at running
      exact running ended
    intro emission h
    rcases List.mem_append.1 h with h | h
    · exact not_fatal_step hstep emission (Option.mem_toList.1 h)
    · exact ih running emission h

/-- The turn ends the run of a driver, in which nothing fatal was handed out so far. -/
structure Ends (driver : SyncDriver) (earlier : List Turn) (turn : Turn) : Prop where
  running : (driver.run earlier).2.phase ≠ .terminated
  ended : (driver.run (earlier ++ [turn])).2.phase = .terminated
  quiet : ∀ emission ∈ (driver.run earlier).1, emission.event.isFatal = false

/-- A run that comes to its end does so in one step, after which nothing is handed out. -/
theorem run_ending {turns : List Turn} (running : driver.phase ≠ .terminated)
    (ended : (driver.run turns).2.phase = .terminated) :
    ∃ earlier turn later, turns = earlier ++ turn :: later ∧ driver.Ends earlier turn ∧
      (turn.2.isCancellation = true ∧ (driver.run turns).1 = (driver.run earlier).1 ∨
        ∃ message, (driver.run turns).1 = (driver.run earlier).1 ++ [.fatal message]) := by
  induction turns generalizing driver with
  | nil => exact absurd ended running
  | cons turn turns ih =>
    rw [run_cons] at ended ⊢
    by_cases hstep : (driver.step turn.1 turn.2).2.phase = .terminated
    · refine ⟨[], turn, turns, rfl, ⟨running, hstep, nofun⟩, ?_⟩
      rw [run_of_terminated hstep]
      obtain ⟨cancelled, silent⟩ | ⟨message, reported⟩ := step_ending running hstep
      · exact .inl ⟨cancelled, by rw [silent]; rfl⟩
      · exact .inr ⟨message, by rw [reported]; rfl⟩
    · obtain ⟨earlier, last, later, rfl, ⟨hrunning, hended, -⟩, hlast⟩ := ih hstep ended
      have hearlier : (driver.run (turn :: earlier)).2.phase ≠ .terminated := hrunning
      refine ⟨turn :: earlier, last, later, rfl, ⟨hearlier, hended, not_fatal_run hearlier⟩, ?_⟩
      rw [run_cons]
      obtain ⟨cancelled, silent⟩ | ⟨message, reported⟩ := hlast
      · exact .inl ⟨cancelled, by rw [silent]⟩
      · exact .inr ⟨message, by rw [reported, List.append_assoc]⟩

/-- A fatal failure is the last thing that is handed out, and the only one of its kind. -/
theorem fatal_run {turns : List Turn} (running : driver.phase ≠ .terminated) {emission : Emission}
    (handed : emission ∈ (driver.run turns).1) (fatal : emission.event.isFatal = true) :
    (driver.run turns).2.phase = .terminated ∧
      ∃ earlier message, (driver.run turns).1 = earlier ++ [.fatal message] ∧
        ∀ other ∈ earlier, other.event.isFatal = false := by
  have ended : (driver.run turns).2.phase = .terminated := by
    refine Decidable.byContradiction fun going => ?_
    rw [not_fatal_run going emission handed] at fatal
    cases fatal
  refine ⟨ended, ?_⟩
  obtain ⟨before, turn, after, -, ends, ending⟩ := run_ending running ended
  obtain ⟨-, silent⟩ | ⟨message, reported⟩ := ending
  · rw [silent] at handed
    rw [ends.quiet emission handed] at fatal
    cases fatal
  · exact ⟨(driver.run before).1, message, reported, ends.quiet⟩

end SyncDriver

/-! ## The writer -/

namespace Writer

variable {σ α : Type} [Channel σ]

theorem driver_poll (now : Nat) (writer : Writer σ) :
    (writer.poll now).2.driver = writer.driver := by
  unfold poll
  split
  · rfl
  · split
    · rfl
    · split <;> rfl

theorem exists_run_of_go (sink : α → Emission → α) (now fuel : Nat) (writer : Writer σ)
    (state : α) :
    ∃ turns,
      let stop := settle.go sink now fuel writer state
      stop.2.2.driver = (writer.driver.run turns).2 ∧
        stop.1 = (writer.driver.run turns).1.foldl sink state := by
  induction fuel generalizing writer state with
  | zero => exact ⟨[], rfl, rfl⟩
  | succ fuel ih =>
    have hdriver := driver_poll now writer
    unfold settle.go
    split
    · rename_i wake next hpoll
      rw [hpoll] at hdriver
      exact ⟨[], hdriver, rfl⟩
    · rename_i input next hpoll
      rw [hpoll] at hdriver
      obtain ⟨turns, hstop, hstate⟩ :=
        ih (next.feed now input).2 ((next.feed now input).1.elim state (sink state))
      refine ⟨(next.draws next.steps, input) :: turns, ?_⟩
      rw [SyncDriver.run_cons, ← hdriver, List.foldl_append]
      refine ⟨hstop, hstate.trans ?_⟩
      congr 1
      cases h : (next.feed now input).1 <;>
        rw [show (next.driver.step (next.draws next.steps) input).1 = _ from h] <;> rfl

/-- What a writer does until it has to wait is a run of its driver. -/
theorem exists_run_of_settle (sink : α → Emission → α) (now : Nat) (writer : Writer σ)
    (state : α) :
    ∃ turns,
      let stop := writer.settle sink now state
      stop.2.2.driver = (writer.driver.run turns).2 ∧
        stop.1 = (writer.driver.run turns).1.foldl sink state :=
  exists_run_of_go sink now writer.bound writer state

end Writer

end FeatureFlags
