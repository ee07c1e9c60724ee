import FeatureFlags.Proofs.Sync.Account

/-!
# A writer from moment to moment

What a writer does is up to those who attend to it: it is asked at some moments whether there is
something to do, and at some moment it may be cancelled (`Moment`). The log of some moments tells
what its driver heard and handed out (`attendAll`).

Whatever the moments, the log is one of a run of the driver (`exists_run_of_attendAll`). A writer
that is cancelled hands out nothing more (`handed_of_cancelled`), so what is handed out in spite of
a cancellation is a prefix of what would have been handed out without it
(`handed_cancel_isPrefix`). A writer that runs up to some point of time is attended to at moments of
its own choice (`Attended.of_runUntil`), and a cancelled one as well
(`runCancelled_isPrefix`).
-/

namespace FeatureFlags

namespace Writer

/-- What happens to a writer at one moment. -/
inductive Moment where
  /-- It is asked, at some time, whether there is something to do. -/
  | poll (now : Nat)
  | cancel

/-- Something that the driver heard, with what it handed out. -/
structure LogEntry where
  time : Nat
  input : DriverInput
  emission : Option Emission

/-- What the driver heard. -/
def heard (log : List LogEntry) : List DriverInput := log.map (·.input)

/-- What the driver handed out, with the times. -/
def handed (log : List LogEntry) : List (Nat × Emission) :=
  log.filterMap fun entry => entry.emission.map (entry.time, ·)

variable {σ : Type} [Channel σ]

/-- What comes of one moment. -/
def attend (writer : Writer σ) : Moment → Option LogEntry × Writer σ
  | .cancel => (none, writer.cancel)
  | .poll now =>
    match writer.poll now with
    | (.pending _, writer) => (none, writer)
    | (.ready input, writer) =>
      let (emission, writer) := writer.feed now input
      (some ⟨now, input, emission⟩, writer)

/-- What comes of some moments, one after the other. -/
def attendAll : Writer σ → List Moment → List LogEntry × Writer σ
  | writer, [] => ([], writer)
  | writer, moment :: moments =>
    let (entry, writer) := writer.attend moment
    let (log, writer) := writer.attendAll moments
    (entry.toList ++ log, writer)

theorem heard_append (xs ys : List LogEntry) : heard (xs ++ ys) = heard xs ++ heard ys :=
  List.map_append

theorem handed_append (xs ys : List LogEntry) : handed (xs ++ ys) = handed xs ++ handed ys :=
  List.filterMap_append

theorem attendAll_cons (writer : Writer σ) (moment : Moment) (moments : List Moment) :
    writer.attendAll (moment :: moments) =
      ((writer.attend moment).1.toList ++ ((writer.attend moment).2.attendAll moments).1,
        ((writer.attend moment).2.attendAll moments).2) := rfl

theorem attendAll_append (writer : Writer σ) (xs ys : List Moment) :
    writer.attendAll (xs ++ ys) =
      ((writer.attendAll xs).1 ++ ((writer.attendAll xs).2.attendAll ys).1,
        ((writer.attendAll xs).2.attendAll ys).2) := by
  induction xs generalizing writer with
  | nil => rfl
  | cons x xs ih => simp only [List.cons_append, attendAll_cons, ih, List.append_assoc]

theorem attend_of_pending {now : Nat} {writer next : Writer σ} {wake : Option Nat}
    (pending : writer.poll now = (.pending wake, next)) :
    writer.attend (.poll now) = (none, next) := by
  simp only [attend, pending]

theorem attend_of_ready {now : Nat} {writer next : Writer σ} {input : DriverInput}
    (ready : writer.poll now = (.ready input, next)) :
    writer.attend (.poll now) =
      (some ⟨now, input, (next.feed now input).1⟩, (next.feed now input).2) := by
  simp only [attend, ready]

/-! ## What a writer finds to do -/

/-- All that a writer can find when it is asked whether there is something to do. -/
inductive Polling (now : Nat) (writer : Writer σ) : Reply DriverInput × Writer σ → Prop
  | ended (terminated : writer.driver.phase = .terminated) :
      Polling now writer (.pending none, writer)
  | cancels (running : writer.driver.phase ≠ .terminated) (cancelled : writer.cancelled = true) :
      Polling now writer (.ready .cancelled, writer)
  | rests {delay : Duration} (uncancelled : writer.cancelled = false)
      (waiting : writer.driver.phase = .waiting delay) (early : ¬ writer.due ≤ now) :
      Polling now writer (.pending (some writer.due), writer)
  | wakes {delay : Duration} (uncancelled : writer.cancelled = false)
      (waiting : writer.driver.phase = .waiting delay) (due : writer.due ≤ now) :
      Polling now writer (.ready .waited, writer)
  | connects {reply : Reply (Except SyncError Unit)} {channel : σ}
      (uncancelled : writer.cancelled = false) (connecting : writer.driver.phase = .connecting)
      (answer : Channel.connect now writer.channel = (reply, channel)) :
      Polling now writer (reply.map .ofOpening, { writer with channel })
  | streams {reply : Reply Delivery} {channel : σ}
      (uncancelled : writer.cancelled = false) (streaming : writer.driver.phase = .streaming)
      (answer : Channel.next now writer.channel = (reply, channel)) :
      Polling now writer (reply.map .ofDelivery, { writer with channel })

theorem poll_polling (now : Nat) (writer : Writer σ) : Polling now writer (writer.poll now) := by
  unfold poll
  split
  · rename_i finished
    exact .ended (beq_iff_eq.1 finished)
  rename_i unfinished
  have running : writer.driver.phase ≠ .terminated := fun h => unfinished (beq_iff_eq.2 h)
  split
  · rename_i cancelled
    exact .cancels running cancelled
  rename_i uncancelled
  rw [Bool.not_eq_true] at uncancelled
  split
  · rename_i connecting
    exact .connects uncancelled connecting rfl
  · rename_i streaming
    exact .streams uncancelled streaming rfl
  · rename_i unconnected unstreaming
    cases hphase : writer.driver.phase with
    | waiting delay =>
      split
      · rename_i due
        exact .wakes uncancelled hphase due
      · rename_i early
        exact .rests uncancelled hphase early
    | connecting => exact absurd hphase unconnected
    | streaming => exact absurd hphase unstreaming
    | terminated => exact absurd hphase running

/-- A writer tells its driver nothing but what the driver is waiting for. -/
theorem expects_of_poll {now : Nat} {writer next : Writer σ} {input : DriverInput}
    (ready : writer.poll now = (.ready input, next)) :
    writer.driver.phase.expects input = true := by
  have polling := poll_polling now writer
  rw [ready] at polling
  generalize hresult : (Reply.ready input, next) = result at polling
  cases polling with
  | ended terminated => cases hresult
  | cancels running cancelled =>
    cases hresult
    cases hphase : writer.driver.phase with
    | terminated => exact absurd hphase running
    | waiting delay => rfl
    | connecting => rfl
    | streaming => rfl
  | rests uncancelled waiting early => cases hresult
  | wakes uncancelled waiting due =>
    cases hresult
    rw [waiting]
    rfl
  | @connects reply channel uncancelled connecting answer =>
    cases reply with
    | ready opened =>
      cases hresult
      rw [connecting]
      cases opened <;> rfl
    | pending wake => cases hresult
  | @streams reply channel uncancelled streaming answer =>
    cases reply with
    | ready delivery =>
      cases hresult
      rw [streaming]
      cases delivery <;> rfl
    | pending wake => cases hresult

/-! ## The run of the driver -/

/-- Whatever the moments, what the driver heard and handed out is a run of it. -/
theorem exists_run_of_attendAll (writer : Writer σ) (moments : List Moment) :
    ∃ turns, (writer.attendAll moments).2.driver = (writer.driver.run turns).2 ∧
      heard (writer.attendAll moments).1 = writer.driver.heeded turns ∧
      (handed (writer.attendAll moments).1).map (·.2) = (writer.driver.run turns).1 := by
  induction moments generalizing writer with
  | nil => exact ⟨[], rfl, rfl, rfl⟩
  | cons moment moments ih =>
    rw [attendAll_cons]
    cases moment with
    | cancel => exact ih writer.cancel
    | poll now =>
      have same := driver_poll now writer
      cases hpoll : writer.poll now with
      | mk reply next =>
        rw [hpoll] at same
        cases reply with
        | pending wake =>
          rw [attend_of_pending hpoll, ← show next.driver = writer.driver from same]
          exact ih next
        | ready input =>
          obtain ⟨turns, hdriver, hheard, hhanded⟩ := ih (next.feed now input).2
          have expected := expects_of_poll hpoll
          rw [← show next.driver = writer.driver from same] at expected ⊢
          rw [attend_of_ready hpoll]
          refine ⟨(next.draws next.steps, input) :: turns, hdriver, ?_, ?_⟩
          · rw [SyncDriver.heeded, List.filter_cons, if_pos expected, List.filter_nil, heard_append,
              hheard]
            rfl
          · rw [SyncDriver.run_cons, handed_append, List.map_append, hhanded]
            congr 1
            cases h : (next.feed now input).1 <;>
              rw [show (next.driver.step (next.draws next.steps) input).1 = _ from h] <;>
              simp [handed]

/-- What comes of one moment is a run of the driver. -/
theorem exists_run_of_attend (writer : Writer σ) (moment : Moment) :
    ∃ turns, (writer.attend moment).2.driver = (writer.driver.run turns).2 ∧
      ((writer.attend moment).1.bind (·.emission)).toList = (writer.driver.run turns).1 := by
  obtain ⟨turns, hdriver, -, hhanded⟩ := exists_run_of_attendAll writer [moment]
  refine ⟨turns, hdriver, ?_⟩
  rw [← hhanded, attendAll_cons]
  cases (writer.attend moment).1 with
  | none => rfl
  | some entry => cases h : entry.emission <;> simp [h, handed, attendAll]

/-! ## Cancellation -/

/-- A writer that is cancelled hands out nothing more. -/
theorem handed_of_cancelled {writer : Writer σ} (cancelled : writer.cancelled = true)
    (moments : List Moment) : handed (writer.attendAll moments).1 = [] := by
  induction moments generalizing writer with
  | nil => rfl
  | cons moment moments ih =>
    rw [attendAll_cons, handed_append]
    cases moment with
    | cancel => exact ih rfl
    | poll now =>
      have polling := poll_polling now writer
      generalize hresult : writer.poll now = result at polling
      cases polling with
      | ended terminated =>
        rw [attend_of_pending hresult]
        exact ih cancelled
      | cancels running _ =>
        have silent : (writer.feed now .cancelled).1 = none := by
          unfold feed
          rw [SyncDriver.step_cancelled running]
        have nothing : handed ((writer.feed now .cancelled).2.attendAll moments).1 = [] :=
          ih cancelled
        rw [attend_of_ready hresult, nothing]
        simp [handed, silent]
      | rests uncancelled _ _ => exact absurd cancelled (Bool.not_eq_true _ ▸ uncancelled)
      | wakes uncancelled _ _ => exact absurd cancelled (Bool.not_eq_true _ ▸ uncancelled)
      | connects uncancelled _ _ => exact absurd cancelled (Bool.not_eq_true _ ▸ uncancelled)
      | streams uncancelled _ _ => exact absurd cancelled (Bool.not_eq_true _ ▸ uncancelled)

/-- A writer that is cancelled finishes without a word. -/
theorem settle_of_cancelled {α : Type} (sink : α → Emission → α) (now : Nat) {writer : Writer σ}
    (cancelled : writer.cancelled = true) (state : α) :
    (writer.settle sink now state).1 = state ∧
      (writer.settle sink now state).2.2.isFinished = true := by
  have ended : ∀ (fuel : Nat) (finished : Writer σ), finished.driver.phase = .terminated →
      settle.go sink now fuel finished state = (state, none, finished) := by
    intro fuel finished hphase
    cases fuel with
    | zero => rfl
    | succ fuel =>
      have hpoll : finished.poll now = (.pending none, finished) := if_pos (beq_iff_eq.2 hphase)
      unfold settle.go
      rw [hpoll]
  obtain ⟨fuel, hfuel⟩ : ∃ fuel, writer.bound = fuel + 1 := by
    refine Nat.exists_eq_succ_of_ne_zero (Nat.ne_of_gt ?_)
    exact Nat.mul_pos (Nat.mul_pos (by omega) (by omega)) (by omega)
  unfold settle
  rw [hfuel]
  by_cases hphase : writer.driver.phase = .terminated
  · rw [ended _ writer hphase]
    exact ⟨rfl, beq_iff_eq.2 hphase⟩
  · have hpoll : writer.poll now = (.ready .cancelled, writer) := by
      unfold poll isFinished
      rw [if_neg (fun h => hphase (beq_iff_eq.1 h)), if_pos cancelled]
    have hfeed : (writer.feed now .cancelled).1 = none ∧
        (writer.feed now .cancelled).2.driver.phase = .terminated := by
      unfold feed
      rw [SyncDriver.step_cancelled hphase]
      exact ⟨rfl, rfl⟩
    have hgo : settle.go sink now (fuel + 1) writer state =
        settle.go sink now fuel (writer.feed now .cancelled).2
          ((writer.feed now .cancelled).1.elim state (sink state)) := by
      rw [settle.go, hpoll]
    rw [hgo, hfeed.1, Option.elim_none, ended _ _ hfeed.2]
    exact ⟨rfl, beq_iff_eq.2 hfeed.2⟩

/-- What is handed out in spite of a cancellation is a prefix of what would have been handed out
without it. -/
theorem handed_cancel_isPrefix (writer : Writer σ) (before after : List Moment) :
    handed (writer.attendAll (before ++ .cancel :: after)).1 <+:
      handed (writer.attendAll (before ++ after)).1 := by
  rw [attendAll_append, attendAll_append, handed_append, handed_append, attendAll_cons,
    handed_append]
  have nothing : handed ((writer.attendAll before).2.cancel.attendAll after).1 = [] :=
    handed_of_cancelled rfl after
  rw [show ((writer.attendAll before).2.attend .cancel).2 = (writer.attendAll before).2.cancel
    from rfl, nothing]
  exact List.prefix_append_right_inj _ |>.2 List.nil_prefix

/-! ## A writer that runs by itself -/

/-- A sink that keeps what it is given, with the times. -/
def record (now : Nat) (out : List (Nat × Emission)) (emission : Emission) :
    List (Nat × Emission) := out ++ [(now, emission)]

/-- The writer gets from one state to another while it is asked at some times whether there is
something to do, and hands out what has been recorded. -/
def Attended (writer : Writer σ) (out : List (Nat × Emission)) (later : Writer σ)
    (out' : List (Nat × Emission)) : Prop :=
  ∃ times : List Nat, later = (writer.attendAll (times.map .poll)).2 ∧
    out' = out ++ handed (writer.attendAll (times.map .poll)).1

namespace Attended

variable {writer later last : Writer σ} {out out' out'' : List (Nat × Emission)}

theorem refl (writer : Writer σ) (out : List (Nat × Emission)) :
    Attended writer out writer out :=
  ⟨[], rfl, (List.append_nil out).symm⟩

theorem trans (h : Attended writer out later out') (h' : Attended later out' last out'') :
    Attended writer out last out'' := by
  obtain ⟨times, rfl, rfl⟩ := h
  obtain ⟨times', rfl, rfl⟩ := h'
  refine ⟨times ++ times', ?_, ?_⟩
  · rw [List.map_append, attendAll_append]
  · rw [List.map_append, attendAll_append, handed_append, List.append_assoc]

theorem isPrefix (h : Attended writer out later out') : out <+: out' := by
  obtain ⟨times, -, rfl⟩ := h
  exact List.prefix_append out _

theorem eq_of_cancelled (h : Attended writer out later out')
    (cancelled : writer.cancelled = true) : out' = out := by
  obtain ⟨times, -, rfl⟩ := h
  rw [handed_of_cancelled cancelled, List.append_nil]

theorem of_go (now fuel : Nat) (writer : Writer σ) (out : List (Nat × Emission)) :
    let stop := settle.go (record now) now fuel writer out
    Attended writer out stop.2.2 stop.1 := by
  induction fuel generalizing writer out with
  | zero => exact .refl writer out
  | succ fuel ih =>
    unfold settle.go
    split
    · rename_i wake next hpoll
      refine ⟨[now], ?_, ?_⟩
      · rw [List.map_singleton, attendAll_cons, attend_of_pending hpoll]
        rfl
      · rw [List.map_singleton, attendAll_cons, attend_of_pending hpoll]
        exact (List.append_nil out).symm
    · rename_i input next hpoll
      have first : Attended writer out (next.feed now input).2
          ((next.feed now input).1.elim out (record now out)) := by
        refine ⟨[now], ?_, ?_⟩
        · rw [List.map_singleton, attendAll_cons, attend_of_ready hpoll]
          rfl
        · rw [List.map_singleton, attendAll_cons, attend_of_ready hpoll]
          cases h : (next.feed now input).1 <;> simp [handed, attendAll, record]
      exact first.trans (ih _ _)

theorem of_settle (now : Nat) (writer : Writer σ) (out : List (Nat × Emission)) :
    let stop := writer.settle (record now) now out
    Attended writer out stop.2.2 stop.1 :=
  of_go now writer.bound writer out

theorem of_runUntil_go (last left now : Nat) (writer : Writer σ) (out : List (Nat × Emission)) :
    let stop := runUntil.go record last left now writer out
    Attended writer out stop.2.2 stop.1 := by
  induction left generalizing now writer out with
  | zero =>
    unfold runUntil.go
    exact of_settle now writer out
  | succ left ih =>
    have settled := of_settle now writer out
    unfold runUntil.go
    generalize writer.settle (record now) now out = stop at settled
    obtain ⟨out', wake, later⟩ := stop
    cases wake with
    | none => exact settled
    | some wake =>
      dsimp only
      split
      · exact settled.trans (ih _ _ _)
      · exact settled

/-- A writer that runs up to some time is attended to at times of its own choice. -/
theorem of_runUntil (last now : Nat) (writer : Writer σ) (out : List (Nat × Emission)) :
    let stop := writer.runUntil record last now out
    Attended writer out stop.2.2 stop.1 :=
  of_runUntil_go last (last - now) now writer out

end Attended

/-- A writer that runs longer hands out the same first. -/
theorem runUntil_go_isPrefix {last last' left left' : Nat} (longer : last ≤ last')
    (more : left ≤ left') (now : Nat) (writer : Writer σ) (out : List (Nat × Emission)) :
    (runUntil.go record last left now writer out).1 <+:
      (runUntil.go record last' left' now writer out).1 := by
  induction left generalizing left' now writer out with
  | zero =>
    rw [runUntil.go.eq_def record last, runUntil.go.eq_def record last']
    generalize writer.settle (record now) now out = stop
    obtain ⟨out', wake, later⟩ := stop
    cases left' with
    | zero => exact List.prefix_rfl
    | succ left' =>
      cases wake with
      | none => exact List.prefix_rfl
      | some wake =>
        dsimp only
        split
        · exact (Attended.of_runUntil_go last' left' _ later out').isPrefix
        · exact List.prefix_rfl
  | succ left ih =>
    obtain ⟨left', rfl⟩ : ∃ n, left' = n + 1 := ⟨left' - 1, by omega⟩
    rw [runUntil.go.eq_def record last, runUntil.go.eq_def record last']
    generalize writer.settle (record now) now out = stop
    obtain ⟨out', wake, later⟩ := stop
    cases wake with
    | none => exact List.prefix_rfl
    | some wake =>
      dsimp only
      by_cases due : wake ≤ last
      · rw [if_pos due, if_pos (Nat.le_trans due longer)]
        exact ih (Nat.le_of_succ_le_succ more) _ _ _
      · rw [if_neg due]
        split
        · exact (Attended.of_runUntil_go last' left' _ later out').isPrefix
        · exact List.prefix_rfl

/-- What a writer hands out that is cancelled at some time is a prefix of what it hands out up to
that time or longer. -/
theorem runCancelled_isPrefix (writer : Writer σ) {cancelAt last : Nat}
    (longer : cancelAt ≤ last + 1) :
    (writer.runCancelled record cancelAt []).1 <+: (writer.runUntil record last 0 []).1 := by
  have halted : ∀ (last now : Nat) (writer : Writer σ) (out : List (Nat × Emission)),
      (writer.cancel.runUntil record last now out).1 = out := fun last now writer out =>
    (Attended.of_runUntil last now writer.cancel out).eq_of_cancelled rfl
  cases cancelAt with
  | zero =>
    rw [runCancelled, halted]
    exact List.nil_prefix
  | succ before =>
    have earlier : before ≤ last := Nat.le_of_succ_le_succ longer
    have within : (writer.runUntil record before 0 []).1 <+: (writer.runUntil record last 0 []).1 :=
      runUntil_go_isPrefix earlier (Nat.sub_le_sub_right earlier 0) 0 writer []
    rw [runCancelled]
    dsimp only
    split
    · exact within
    · rw [halted]
      exact within

end Writer

end FeatureFlags
