import FeatureFlags.Proofs.Channel.Revalidation

/-!
# Failures of a polled server

A failed request makes the data doubtful if it stands alone, and ends the session if the one before
it failed too. So what a session delivers is told by the results of its requests: whether two in a
row failed before a place (`PollSession.BrokenOff`), and the result at the place and the one before
it (`PollSession.Yields`).

* `Follows.step`, `Follows.yields`: one request, with the mark that the session keeps of the last
  one. `Follows.getElem?_deliveries`: all requests, by induction on those that are still to come.
* `PollChannel.deliveries_poll`: the tags that go into the requests do not matter for what is
  delivered, once the answers are given.
* `PollChannel.run_items`, `length_requests_iff`: a session from its first request on, and for how
  long it goes on.
-/

namespace FeatureFlags

namespace PollSession

variable {results past rest : List (Except SyncError SyncMessage)}
  {result : Except SyncError SyncMessage} {session : PollSession} {delivery : Delivery} {i j : Nat}

/-! ## Failures in a row -/

/-- The request at a place failed. -/
def FailedAt (results : List (Except SyncError SyncMessage)) (i : Nat) : Prop :=
  ∃ error, results[i]? = some (.error error)

/-- Two requests in a row failed before a place. -/
def BrokenOff (results : List (Except SyncError SyncMessage)) (i : Nat) : Prop :=
  ∃ j, j + 1 < i ∧ FailedAt results j ∧ FailedAt results (j + 1)

/-- What comes of the request at a place: the message that it fetched, a doubt if it failed and the
one before it did not, and otherwise its error. -/
inductive Yields (results : List (Except SyncError SyncMessage)) (i : Nat) : Delivery → Prop where
  | message {message : SyncMessage} (fetched : results[i]? = some (.ok message)) :
    Yields results i (.message message)
  | degraded {error : SyncError} (failed : results[i]? = some (.error error))
    (isolated : ∀ j, j + 1 = i → ¬ FailedAt results j) :
    Yields results i (.message (.degraded error.message))
  | failed {error : SyncError} (failed : results[i]? = some (.error error))
    (again : ∃ j, j + 1 = i ∧ FailedAt results j) : Yields results i (.failed error)

theorem failedAt_append (h : j < past.length) :
    FailedAt (past ++ rest) j ↔ FailedAt past j := by
  unfold FailedAt
  rw [List.getElem?_append_left h]

theorem failedAt_length : FailedAt (past ++ result :: rest) past.length ↔
    ∃ error, result = .error error := by
  unfold FailedAt
  simp

theorem brokenOff_append (h : i ≤ past.length) :
    BrokenOff (past ++ rest) i ↔ BrokenOff past i := by
  refine exists_congr fun j => and_congr_right fun hj => ?_
  rw [failedAt_append (by omega), failedAt_append (by omega)]

theorem BrokenOff.mono (h : BrokenOff results i) (le : i ≤ j) : BrokenOff results j := by
  obtain ⟨k, hk, failures⟩ := h
  exact ⟨k, by omega, failures⟩

theorem brokenOff_succ : BrokenOff results (i + 1) ↔
    BrokenOff results i ∨ (∃ j, j + 1 = i ∧ FailedAt results j) ∧ FailedAt results i := by
  constructor
  · rintro ⟨j, hj, first, second⟩
    rcases Nat.lt_or_eq_of_le (Nat.le_of_lt_succ hj) with earlier | rfl
    · exact .inl ⟨j, earlier, first, second⟩
    · exact .inr ⟨⟨j, rfl, first⟩, second⟩
  · rintro (earlier | ⟨⟨j, rfl, first⟩, second⟩)
    · exact earlier.mono (Nat.le_succ i)
    · exact ⟨j, Nat.lt_succ_self _, first, second⟩

theorem Yields.lt_length (yields : Yields results i delivery) : i < results.length := by
  cases yields with
  | message h | degraded h | failed h => exact (List.getElem?_eq_some_iff.1 h).1

theorem exists_yields (h : i < results.length) : ∃ delivery, Yields results i delivery := by
  have current : results[i]? = some results[i] := List.getElem?_eq_getElem h
  cases hresult : results[i] with
  | ok message => exact ⟨_, .message (current.trans (congrArg some hresult))⟩
  | error error =>
    rw [hresult] at current
    by_cases again : ∃ j, j + 1 = i ∧ FailedAt results j
    · exact ⟨_, .failed current again⟩
    · exact ⟨_, .degraded current fun j hj first => again ⟨j, hj, first⟩⟩

/-! ## One request -/

/-- How a session stands after some requests. -/
structure Follows (past : List (Except SyncError SyncMessage)) (session : PollSession) : Prop where
  finished : session.finished = true ↔ BrokenOff past past.length
  failing : session.finished = false →
    (session.failing = true ↔ ∃ j, j + 1 = past.length ∧ FailedAt past j)

theorem Follows.step (h : Follows past session) (result : Except SyncError SyncMessage) :
    Follows (past ++ [result]) (session.step result).2 := by
  have breaks : BrokenOff (past ++ [result]) (past ++ [result]).length ↔
      BrokenOff past past.length ∨
        (∃ j, j + 1 = past.length ∧ FailedAt past j) ∧ ∃ error, result = .error error := by
    rw [List.length_append, List.length_singleton, brokenOff_succ,
      brokenOff_append (Nat.le_refl _), failedAt_length]
    refine or_congr_right (and_congr_left fun _ => exists_congr fun j => ?_)
    exact and_congr_right fun hj => failedAt_append (by omega)
  have last : (∃ j, j + 1 = (past ++ [result]).length ∧ FailedAt (past ++ [result]) j) ↔
      ∃ error, result = .error error := by
    have current : FailedAt (past ++ [result]) past.length ↔ ∃ error, result = .error error :=
      failedAt_length
    rw [List.length_append, List.length_singleton, ← current]
    simp
  unfold PollSession.step
  cases hfinished : session.finished with
  | true =>
    rw [if_pos rfl]
    exact ⟨iff_of_true hfinished (breaks.2 (.inl (h.finished.1 hfinished))),
      fun going => by cases hfinished.symm.trans going⟩
  | false =>
    have going : ¬ BrokenOff past past.length := fun broken => by
      cases hfinished.symm.trans (h.finished.2 broken)
    have failing := h.failing hfinished
    rw [if_neg Bool.false_ne_true]
    cases result with
    | ok message =>
      refine ⟨iff_of_false (by simp) ?_, fun _ => ?_⟩
      · rw [breaks]
        rintro (broken | ⟨-, error, same⟩)
        · exact going broken
        · cases same
      · rw [last]
        exact iff_of_false Bool.false_ne_true nofun
    | error error =>
      dsimp only
      by_cases again : session.failing = true
      · rw [if_pos again]
        exact ⟨iff_of_true rfl (breaks.2 (.inr ⟨failing.1 again, error, rfl⟩)), nofun⟩
      · rw [if_neg again]
        refine ⟨iff_of_false (by simp) ?_, fun _ => ?_⟩
        · rw [breaks]
          rintro (broken | ⟨failed, -⟩)
          · exact going broken
          · exact again (failing.2 failed)
        · exact iff_of_true rfl (last.2 ⟨error, rfl⟩)

/-- What a session that goes on delivers for a request. -/
theorem Follows.yields (h : Follows past session) (going : session.finished = false)
    (result : Except SyncError SyncMessage) (rest : List (Except SyncError SyncMessage)) :
    (session.step result).1 = some delivery ↔
      Yields (past ++ result :: rest) past.length delivery := by
  have current : (past ++ result :: rest)[past.length]? = some result := by simp
  have before : (∃ j, j + 1 = past.length ∧ FailedAt (past ++ result :: rest) j) ↔
      session.failing = true := by
    rw [h.failing going]
    exact exists_congr fun j => and_congr_right fun hj => failedAt_append (by omega)
  unfold PollSession.step
  rw [if_neg (by simp [going])]
  cases result with
  | ok message =>
    constructor
    · rintro ⟨⟩
      exact .message current
    · rintro (fetched | ⟨failed, -⟩ | ⟨failed, -⟩)
      · cases current.symm.trans fetched
        rfl
      · cases current.symm.trans failed
      · cases current.symm.trans failed
  | error error =>
    dsimp only
    by_cases again : session.failing = true
    · rw [if_pos again]
      constructor
      · rintro ⟨⟩
        exact .failed current (before.2 again)
      · rintro (fetched | ⟨-, isolated⟩ | ⟨failed, -⟩)
        · cases current.symm.trans fetched
        · obtain ⟨j, hj, first⟩ := before.2 again
          exact absurd first (isolated j hj)
        · cases current.symm.trans failed
          rfl
    · rw [if_neg again]
      constructor
      · rintro ⟨⟩
        exact .degraded current fun j hj first => again (before.1 ⟨j, hj, first⟩)
      · rintro (fetched | ⟨failed, -⟩ | ⟨-, first⟩)
        · cases current.symm.trans fetched
        · cases current.symm.trans failed
          rfl
        · exact absurd (before.1 first) again

/-! ## All requests -/

/-- What a session delivers for some requests. -/
def deliveries : PollSession → List (Except SyncError SyncMessage) → List Delivery
  | _, [] => []
  | session, result :: results =>
    (session.step result).1.toList ++ deliveries (session.step result).2 results

theorem deliveries_of_finished (finished : session.finished = true)
    (results : List (Except SyncError SyncMessage)) : session.deliveries results = [] := by
  induction results with
  | nil => rfl
  | cons result results ih =>
    have stays : session.step result = (none, session) := if_pos finished
    rw [deliveries, stays]
    exact ih

/-- The delivery at a place is told by the results up to there. -/
theorem Follows.getElem?_deliveries (h : Follows past session)
    (rest : List (Except SyncError SyncMessage)) (i : Nat) :
    (session.deliveries rest)[i]? = some delivery ↔
      ¬ BrokenOff (past ++ rest) (past.length + i) ∧
        Yields (past ++ rest) (past.length + i) delivery := by
  induction rest generalizing past session i with
  | nil =>
    refine iff_of_false (by simp [deliveries]) fun ⟨_, yields⟩ => ?_
    have := yields.lt_length
    rw [List.append_nil] at this
    omega
  | cons result rest ih =>
    have whole : past ++ [result] ++ rest = past ++ result :: rest := by simp
    cases hfinished : session.finished with
    | true =>
      rw [deliveries_of_finished hfinished]
      refine iff_of_false (by simp) fun ⟨going, _⟩ => going ?_
      have broken : BrokenOff (past ++ result :: rest) past.length :=
        (brokenOff_append (Nat.le_refl _)).2 (h.finished.1 hfinished)
      exact broken.mono (Nat.le_add_right _ _)
    | false =>
      obtain ⟨first, delivers, -⟩ := step_delivers hfinished result
      have going : ¬ BrokenOff (past ++ result :: rest) past.length := by
        rw [brokenOff_append (Nat.le_refl _), ← h.finished]
        simp [hfinished]
      rw [deliveries, delivers]
      cases i with
      | zero =>
        rw [Nat.add_zero, and_iff_right going, ← h.yields hfinished result rest, delivers]
        rfl
      | succ i =>
        have later := ih (h.step result) i
        rw [whole, List.length_append, List.length_singleton] at later
        rw [show past.length + (i + 1) = past.length + 1 + i by omega, ← later]
        rfl

end PollSession

namespace PollChannel

/-- What comes of a request, whatever the channel remembers. -/
def result (channel : PollChannel) (reply : HttpReply) : Except SyncError SyncMessage :=
  (channel.restart.fetch reply).1

/-- The tag that a channel remembers only goes into the request. -/
theorem fetch_fst (channel : PollChannel) (reply : HttpReply) :
    (channel.fetch reply).1 = channel.result reply := by
  unfold result fetch
  cases reply.accepted with
  | error error => rfl
  | ok response =>
    dsimp only
    by_cases confirmed : response.status = HttpResponse.notModified
    · rw [if_pos confirmed, if_pos confirmed]
    · rw [if_neg confirmed, if_neg confirmed]
      cases response.text <;> rfl

theorem result_fetch_snd (channel : PollChannel) (reply : HttpReply) :
    (channel.fetch reply).2.result = channel.result := by
  have fetched := channel.fetched_fetch reply
  generalize channel.fetch reply = next at fetched ⊢
  cases fetched <;> rfl

/-- What is delivered depends on nothing but what comes of the requests. -/
theorem deliveries_poll (channel : PollChannel) (session : PollSession) (replies : List HttpReply) :
    (channel.poll replies session).2.1 = session.deliveries (replies.map channel.result) := by
  induction replies generalizing channel session with
  | nil => rfl
  | cons reply replies ih =>
    cases hfinished : session.finished with
    | true =>
      rw [PollSession.deliveries_of_finished hfinished]
      simp [poll, hfinished]
    | false =>
      obtain ⟨delivery, delivers, -⟩ := channel.exchange hfinished reply
      rw [poll_cons hfinished delivers, List.map_cons, PollSession.deliveries, ← fetch_fst,
        delivers]
      dsimp only
      rw [ih, result_fetch_snd]
      rfl

/-- A session is opened exactly if its first request succeeds. Then each request delivers one item,
until two in a row have failed. -/
theorem run_items (channel : PollChannel) (first : HttpReply) (replies : List HttpReply) :
    let results := (first :: replies).map channel.result
    let (requests, opened, _) := channel.run first replies
    (∀ error, opened = .error error ↔ channel.result first = .error error) ∧
    ∀ items, opened = .ok items → items.length = requests.length ∧
      ∀ i item, items[i]? = some item ↔
        ¬ PollSession.BrokenOff results i ∧ PollSession.Yields results i item := by
  intro results
  cases hfirst : channel.restart.fetch first with
  | mk fetched held =>
    have hresult : channel.result first = fetched := congrArg Prod.fst hfirst
    rw [hresult]
    cases fetched with
    | error error =>
      unfold run
      dsimp only
      rw [hfirst]
      exact ⟨fun e => by simp, nofun⟩
    | ok message =>
      rw [run_eq_poll hfirst replies]
      refine ⟨fun e => by simp, ?_⟩
      rintro _ ⟨⟩
      have conversation := channel.restart.conversation_poll {} (first :: replies)
        (show channel.restart.etag = Delivery.lastTag [] from rfl) nofun
      have start : PollSession.Follows [] {} :=
        ⟨iff_of_false Bool.false_ne_true nofun, fun _ => iff_of_false Bool.false_ne_true nofun⟩
      refine ⟨conversation.length_eq.symm, fun i item => ?_⟩
      rw [deliveries_poll, start.getElem?_deliveries]
      simp only [List.nil_append, List.length_nil, Nat.zero_add]
      rfl

/-- With every answer that a server would give, a session makes all requests up to some number
exactly if no two in a row have failed before the last of them. -/
theorem length_requests_iff (channel : PollChannel) (server : Nat → HttpReply)
    (opens : ∃ message, channel.result (server 0) = .ok message) (n : Nat) :
    (channel.run (server 0) ((List.range n).map fun i => server (i + 1))).1.length = n + 1 ↔
      ∀ i, i + 1 < n → ¬ ((∃ error, channel.result (server i) = .error error) ∧
        ∃ error, channel.result (server (i + 1)) = .error error) := by
  let replies := (List.range n).map fun i => server (i + 1)
  have all : server 0 :: replies = (List.range (n + 1)).map server := by
    simp [replies, List.range_succ_eq_map]
  have fails {i : Nat} (hi : i ≤ n) :
      PollSession.FailedAt ((server 0 :: replies).map channel.result) i ↔
        ∃ error, channel.result (server i) = .error error := by
    have current : ((List.range (n + 1)).map server)[i]? = some (server i) := by
      simp [List.getElem?_range (show i < n + 1 by omega)]
    unfold PollSession.FailedAt
    rw [all, List.getElem?_map, current]
    simp
  have length : ((server 0 :: replies).map channel.result).length = n + 1 := by
    simp [replies]
  obtain ⟨message, hmessage⟩ := opens
  have delivers := channel.run_items (server 0) replies
  change (channel.run (server 0) replies).1.length = n + 1 ↔ _
  generalize (server 0 :: replies).map channel.result = results at fails length delivers
  generalize channel.run (server 0) replies = ran at delivers ⊢
  obtain ⟨requests, opened, held⟩ := ran
  obtain ⟨refused, accepted⟩ := delivers
  cases opened with
  | error error => cases hmessage.symm.trans ((refused error).1 rfl)
  | ok items =>
    obtain ⟨hlength, hitem⟩ := accepted items rfl
    have bound : items.length ≤ n + 1 := by
      by_contra more
      obtain ⟨-, yields⟩ := (hitem (n + 1) _).1 (List.getElem?_eq_getElem (by omega))
      have := yields.lt_length
      omega
    have reached : items.length = n + 1 ↔ ¬ PollSession.BrokenOff results n := by
      constructor
      · intro whole
        exact ((hitem n _).1 (List.getElem?_eq_getElem (by omega))).1
      · intro going
        obtain ⟨item, yields⟩ := PollSession.exists_yields (show n < results.length by omega)
        have := (List.getElem?_eq_some_iff.1 ((hitem n item).2 ⟨going, yields⟩)).1
        omega
    rw [← hlength, reached, PollSession.BrokenOff, not_exists]
    refine forall_congr' fun i => ?_
    rw [not_and]
    refine imp_congr_right fun hi => ?_
    rw [fails (by omega), fails (by omega)]

/-- A session is opened exactly if the first request succeeds, and an error is then that of the
request. An open session delivers one item for each request: the message that was fetched, a doubt
for a failure after a success, and the error of the first request that failed after another failure,
with which it ends. So it goes on for ever exactly if no two requests in a row fail. -/
theorem isolated_failures_are_tolerated (channel : PollChannel) :
    (∀ (first : HttpReply) (replies : List HttpReply),
      let results := (first :: replies).map channel.result
      let (requests, opened, _) := channel.run first replies
      (∀ error, opened = .error error ↔ channel.result first = .error error) ∧
      ∀ items, opened = .ok items → items.length = requests.length ∧
        ∀ i item, items[i]? = some item ↔
          ¬ PollSession.BrokenOff results i ∧ PollSession.Yields results i item) ∧
    ∀ server : Nat → HttpReply, (∃ message, channel.result (server 0) = .ok message) →
      ((∀ n, (channel.run (server 0) ((List.range n).map fun i => server (i + 1))).1.length =
          n + 1) ↔
        ∀ i, ¬ ((∃ error, channel.result (server i) = .error error) ∧
          ∃ error, channel.result (server (i + 1)) = .error error)) := by
  refine ⟨channel.run_items, fun server opens => ?_⟩
  simp only [channel.length_requests_iff server opens]
  exact ⟨fun h i => h (i + 2) i (by omega), fun h n i _ => h i⟩

/-- A server that fails every other time is asked for ever. -/
theorem isolated_failures_are_tolerated_every_other :
    let channel : PollChannel := { target := { url := "http://host" } }
    let server (i : Nat) : HttpReply :=
      if i % 2 = 0 then .ok ⟨304, none, .ok []⟩ else .error "refused"
    (∃ message, channel.result (server 0) = .ok message) ∧
      ∀ n, (channel.run (server 0) ((List.range n).map fun i => server (i + 1))).1.length =
        n + 1 := by
  intro channel server
  have opens : ∃ message, channel.result (server 0) = .ok message := ⟨.heartbeat, rfl⟩
  refine ⟨opens, ((isolated_failures_are_tolerated channel).2 server opens).2 ?_⟩
  rintro i ⟨⟨first, hfirst⟩, second, hsecond⟩
  have succeeds {i : Nat} (even : i % 2 = 0) : channel.result (server i) = .ok .heartbeat := by
    rw [show server i = .ok ⟨304, none, .ok []⟩ from if_pos even]
    rfl
  rcases Nat.mod_two_eq_zero_or_one i with even | odd
  · cases hfirst.symm.trans (succeeds even)
  · cases hsecond.symm.trans (succeeds (by omega))

end PollChannel

end FeatureFlags
