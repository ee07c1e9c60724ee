import FeatureFlags.Channel.Poll
import FeatureFlags.Proofs.Text.Utf8
import Mathlib.Data.List.Basic

/-!
# The tags of a polled document

A channel that asks again and again tells the server the tag of the document that it has, and the
server may answer that this is still the current one. Such an answer must be about the document that
was delivered last, or an update would be lost.

* `HttpResponse.readableTag?` is the tag that an answer spells, and `etagText?_eq` that it is read;
* `PollChannel.payload?` is what an answer delivers, and `Fetched` lists what can come of a request;
* `Delivery.lastTag` is the tag of the last configuration that a session delivered;
* `Conversation` ties the requests of a session to what it delivered before each of them, and
  `conversation_poll` carries it through a session;
* `tags_are_of_last_configuration`: what follows for a session from its first request on, whatever
  the channel remembers of an earlier one. Only one session of a channel is open at a time.
-/

namespace FeatureFlags

/-- The configuration that is delivered, if one is. -/
def Delivery.configuration? : Delivery → Option SyncPayload
  | .message (.configuration payload) => some payload
  | _ => none

/-- The tag of the last configuration among some deliveries, if there is one and it has a tag. -/
def Delivery.lastTag (deliveries : List Delivery) : Option String :=
  (deliveries.filterMap configuration?).getLast?.bind (·.version)

/-- A configuration that is delivered replaces the tag, and nothing else does. -/
theorem Delivery.lastTag_concat (past : List Delivery) (delivery : Delivery) :
    lastTag (past ++ [delivery]) =
      delivery.configuration?.elim (lastTag past) (·.version) := by
  unfold lastTag
  rw [List.filterMap_append]
  cases h : delivery.configuration? with
  | none => simp [h]
  | some payload => simp [h]

/-- The tag that the bytes of a header spell, if they all are visible characters of ASCII, blanks or
tabs. -/
def HttpResponse.readableTag? (response : HttpResponse) : Option String :=
  response.etag.bind fun bytes =>
    if bytes.all fun b => b = 0x09 ∨ 0x20 ≤ b ∧ b ≤ 0x7E then
      some (String.ofList (bytes.map fun b => Char.ofNat b.toNat))
    else none

/-- A tag is read if it is readable, and then as it is spelt. -/
theorem HttpResponse.etagText?_eq (response : HttpResponse) :
    response.etagText? = response.readableTag? := by
  obtain ⟨status, etag, body⟩ := response
  cases etag with
  | none => rfl
  | some bytes =>
    have visible (b : UInt8) : (b == 0x09 || (0x20 ≤ b && b < 0x7F)) =
        decide (b = 0x09 ∨ 0x20 ≤ b ∧ b ≤ 0x7E) := by
      have top : b < 0x7F ↔ b ≤ 0x7E := by
        show b.toNat < 0x7F ↔ b.toNat ≤ 0x7E
        omega
      rw [Bool.eq_iff_iff]
      simp [top]
    unfold etagText? readableTag?
    dsimp only
    simp only [visible]
    rw [Option.filter_some, Option.bind_some]
    split
    · rename_i readable
      have ascii : ∀ b ∈ bytes, b < 0x80 := by
        intro b hb
        show b.toNat < 0x80
        rcases of_decide_eq_true (List.all_eq_true.1 readable b hb) with rfl | ⟨-, top⟩
        · decide
        · exact Nat.lt_of_le_of_lt top (by decide)
      rw [Option.map_some, Utf8.decodeLossy_ascii ascii]
    · rfl

/-- The document that an answer carries, with its bytes: the answer succeeded, and its body was read
to its end. -/
def HttpReply.document? : HttpReply → Option (HttpResponse × List UInt8)
  | .error _ => none
  | .ok response =>
    match response.body with
    | .error _ => none
    | .ok bytes =>
      if 200 ≤ response.status ∧ response.status ≤ 299 then some (response, bytes) else none

/-- Whether the answer says that nothing was modified. -/
def HttpReply.confirms : HttpReply → Bool
  | .error _ => false
  | .ok response => response.status == HttpResponse.notModified

namespace PollChannel

/-- The configuration that an answer delivers. -/
def payload? (channel : PollChannel) (reply : HttpReply) : Option SyncPayload :=
  reply.document?.map fun (response, bytes) =>
    { content := .full (Utf8.decodeLossy bytes)
      version := response.readableTag?
      metadata := channel.origin response.readableTag? }

/-- What can come of a request. Only an answer with a document changes the tag. -/
inductive Fetched (channel : PollChannel) (reply : HttpReply) :
    Except SyncError SyncMessage × PollChannel → Prop
  | document {payload : SyncPayload} (carries : channel.payload? reply = some payload) :
      Fetched channel reply
        (.ok (.configuration payload), { channel with etag := payload.version })
  | confirmed (carries : channel.payload? reply = none) (confirms : reply.confirms = true) :
      Fetched channel reply (.ok .heartbeat, channel)
  | failed (error : SyncError) (carries : channel.payload? reply = none)
      (confirms : reply.confirms = false) :
      Fetched channel reply (.error error, channel)

variable {channel : PollChannel} {reply : HttpReply}

theorem fetched_fetch (channel : PollChannel) (reply : HttpReply) :
    Fetched channel reply (channel.fetch reply) := by
  cases reply with
  | error detail => exact .failed _ rfl rfl
  | ok response =>
    obtain ⟨status, etag, body⟩ := response
    by_cases modified : status = HttpResponse.notModified
    · subst modified
      refine .confirmed ?_ rfl
      cases body <;> rfl
    · have unconfirmed : HttpReply.confirms (.ok ⟨status, etag, body⟩) = false := by
        simpa [HttpReply.confirms] using modified
      by_cases succeeds : 200 ≤ status ∧ status ≤ 299
      · have accepted : HttpReply.accepted (.ok ⟨status, etag, body⟩) =
            .ok ⟨status, etag, body⟩ := by
          simp [HttpReply.accepted, HttpResponse.isAccepted, succeeds]
        unfold fetch
        rw [accepted]
        dsimp only
        rw [if_neg modified, HttpResponse.etagText?_eq]
        cases body with
        | error detail => exact .failed _ rfl unconfirmed
        | ok bytes =>
          refine .document (?_ : channel.payload? _ = some ⟨.full _, _, _⟩)
          simp [payload?, HttpReply.document?, succeeds]
      · have refused : HttpResponse.isAccepted ⟨status, etag, body⟩ = false := by
          simp only [HttpResponse.isAccepted, Bool.or_eq_false_iff, beq_eq_false_iff_ne]
          exact ⟨by simpa using succeeds, modified⟩
        have carries : channel.payload? (.ok ⟨status, etag, body⟩) = none := by
          cases body <;> simp [payload?, HttpReply.document?, succeeds]
        unfold fetch HttpReply.accepted
        dsimp only
        rw [refused]
        exact .failed _ carries unconfirmed

/-- An answer without a document leaves the channel as it is. -/
theorem fetch_eq_self (carries : channel.payload? reply = none) :
    (channel.fetch reply).2 = channel := by
  have fetched := channel.fetched_fetch reply
  generalize channel.fetch reply = result at fetched ⊢
  cases fetched with
  | document h => cases carries.symm.trans h
  | confirmed _ _ => rfl
  | failed _ _ _ => rfl

end PollChannel

/-- A session that is not over delivers something for every request, and a configuration only if
that was fetched. It is over once it has delivered a failure. -/
theorem PollSession.step_delivers {session : PollSession} (going : session.finished = false)
    (fetched : Except SyncError SyncMessage) :
    ∃ delivery, (session.step fetched).1 = some delivery ∧
      (∀ payload, delivery.configuration? = some payload ↔
        fetched = .ok (.configuration payload)) ∧
      ((session.step fetched).2.finished = true → ∃ error, delivery = .failed error) := by
  unfold step
  rw [if_neg (by simp [going])]
  cases fetched with
  | ok message =>
    refine ⟨.message message, rfl, fun payload => ?_, fun finished => ?_⟩
    · cases message <;> simp [Delivery.configuration?]
    · cases going.symm.trans finished
  | error error =>
    dsimp only
    split
    · exact ⟨.failed error, rfl, by simp [Delivery.configuration?], fun _ => ⟨error, rfl⟩⟩
    · refine ⟨_, rfl, by simp [Delivery.configuration?], fun finished => ?_⟩
      cases going.symm.trans finished

namespace PollChannel

/-- What is asked and delivered in a session that has delivered something before. -/
structure Conversation (channel : PollChannel) (past : List Delivery) (replies : List HttpReply)
    (requests : List HttpRequest) (deliveries : List Delivery) (after : PollChannel) : Prop where
  length_eq : requests.length = deliveries.length
  /-- A request carries the tag of the configuration that was delivered last before it. -/
  asks : ∀ (i : Nat) (request : HttpRequest), requests[i]? = some request → request =
    { channel.target.request with ifNoneMatch := Delivery.lastTag (past ++ deliveries.take i) }
  /-- The configurations are those of the answers. -/
  carries : ∀ (i : Nat) (reply : HttpReply) (delivery : Delivery), replies[i]? = some reply →
    deliveries[i]? = some delivery → delivery.configuration? = channel.payload? reply
  remembers : after.etag = Delivery.lastTag (past ++ deliveries)
  /-- All answers are asked for, unless the session fails. -/
  ends : deliveries.length = replies.length ∨
    ∃ error, (past ++ deliveries).getLast? = some (.failed error)

variable {channel : PollChannel}

/-- One request of a session that is not over. -/
theorem exchange (channel : PollChannel) {session : PollSession} (going : session.finished = false)
    (reply : HttpReply) :
    ∃ delivery, (session.step (channel.fetch reply).1).1 = some delivery ∧
      delivery.configuration? = channel.payload? reply ∧
      (channel.fetch reply).2 =
        { channel with etag := delivery.configuration?.elim channel.etag (·.version) } ∧
      ((session.step (channel.fetch reply).1).2.finished = true →
        ∃ error, delivery = .failed error) := by
  have fetched := channel.fetched_fetch reply
  generalize channel.fetch reply = result at fetched ⊢
  obtain ⟨delivery, hstep, hconfiguration, hover⟩ := PollSession.step_delivers going result.1
  have unless_fetched (h : ∀ payload, result.1 ≠ .ok (.configuration payload)) :
      delivery.configuration? = none :=
    Option.eq_none_iff_forall_ne_some.2 fun payload hsome =>
      h payload ((hconfiguration payload).1 hsome)
  refine ⟨delivery, hstep, ?_⟩
  cases fetched with
  | document carries =>
    have hdelivery := (hconfiguration _).2 rfl
    exact ⟨hdelivery.trans carries.symm, by rw [hdelivery]; rfl, hover⟩
  | confirmed carries confirms =>
    have hdelivery := unless_fetched nofun
    exact ⟨hdelivery.trans carries.symm, by rw [hdelivery]; rfl, hover⟩
  | failed error carries confirms =>
    have hdelivery := unless_fetched nofun
    exact ⟨hdelivery.trans carries.symm, by rw [hdelivery]; rfl, hover⟩

/-- The tag that a channel has does not matter for what is said of a session. -/
theorem Conversation.of_restart {past deliveries : List Delivery} {replies : List HttpReply}
    {requests : List HttpRequest} {after : PollChannel}
    (h : Conversation channel.restart past replies requests deliveries after) :
    Conversation channel past replies requests deliveries after :=
  ⟨h.length_eq, h.asks, h.carries, h.remembers, h.ends⟩

/-- A request and what is delivered for it come before the rest of a session. -/
theorem Conversation.cons {past deliveries : List Delivery} {replies : List HttpReply}
    {requests : List HttpRequest} {after : PollChannel} {reply : HttpReply} {delivery : Delivery}
    {etag : Option String} (remembers : channel.etag = Delivery.lastTag past)
    (carries : delivery.configuration? = channel.payload? reply)
    (rest : Conversation { channel with etag } (past ++ [delivery]) replies requests deliveries
      after) :
    Conversation channel past (reply :: replies) (channel.request :: requests)
      (delivery :: deliveries) after where
  length_eq := congrArg (· + 1) rest.length_eq
  asks i request h := by
    cases i with
    | zero =>
      obtain rfl : channel.request = request := Option.some.inj h
      rw [List.take_zero, List.append_nil, ← remembers]
      rfl
    | succ i =>
      have hrequest := rest.asks i request h
      rwa [List.append_assoc] at hrequest
  carries i found delivered hfound hdelivered := by
    cases i with
    | zero =>
      obtain rfl : reply = found := Option.some.inj hfound
      obtain rfl : delivery = delivered := Option.some.inj hdelivered
      exact carries
    | succ i => exact rest.carries i found delivered hfound hdelivered
  remembers := by
    have := rest.remembers
    rwa [List.append_assoc] at this
  ends := by
    have := rest.ends
    rw [List.append_assoc] at this
    exact this.imp (congrArg (· + 1)) id

theorem poll_cons {session : PollSession} (going : session.finished = false) {reply : HttpReply}
    {delivery : Delivery} (delivers : (session.step (channel.fetch reply).1).1 = some delivery)
    (replies : List HttpReply) :
    channel.poll (reply :: replies) session =
      let rest := (channel.fetch reply).2.poll replies (session.step (channel.fetch reply).1).2
      (channel.request :: rest.1, delivery :: rest.2.1, rest.2.2) := by
  simp [poll, going, delivers]

/-- What is asked and delivered in the course of a session. -/
theorem conversation_poll (channel : PollChannel) (session : PollSession) {past : List Delivery}
    (replies : List HttpReply)
    (remembers : channel.etag = Delivery.lastTag past)
    (failed : session.finished = true → ∃ error, past.getLast? = some (.failed error)) :
    Conversation channel past replies (channel.poll replies session).1
      (channel.poll replies session).2.1 (channel.poll replies session).2.2 := by
  -- what is delivered for one answer is in the past of the next one
  induction replies generalizing channel session past with
  | nil => exact {
      length_eq := rfl
      asks := by simp [poll]
      carries := by simp
      remembers := by simpa [poll] using remembers
      ends := .inl rfl }
  | cons reply replies ih =>
    cases going : session.finished with
    | true =>
      have hpoll : channel.poll (reply :: replies) session = ([], [], channel) := by
        simp [poll, going]
      rw [hpoll]
      exact {
        length_eq := rfl
        asks := by simp
        carries := by simp
        remembers := by simpa using remembers
        ends := .inr (by simpa using failed going) }
    | false =>
      obtain ⟨delivery, delivers, carries, hafter, hover⟩ := channel.exchange going reply
      rw [poll_cons going delivers, hafter]
      refine .cons remembers carries (ih _ _ ?_ fun finished => ?_)
      · rw [Delivery.lastTag_concat, remembers]
      · obtain ⟨error, rfl⟩ := hover finished
        exact ⟨error, List.getLast?_concat⟩

/-- A session that is opened with a message goes on as if it had been open before. -/
theorem run_eq_poll {first : HttpReply} {message : SyncMessage} {held : PollChannel}
    (opens : channel.restart.fetch first = (.ok message, held)) (replies : List HttpReply) :
    channel.run first replies =
      let session := channel.restart.poll (first :: replies) {}
      (session.1, .ok session.2.1, session.2.2) := by
  have delivers : (({} : PollSession).step (channel.restart.fetch first).1).1 =
      some (.message message) := by
    rw [opens]
    rfl
  rw [poll_cons rfl delivers]
  unfold run
  dsimp only
  rw [opens]
  rfl

/-- The first request of a session has no tag, and each later one has the tag of the configuration
that was delivered last before it, if there is one and it has a readable tag; the tag that is
remembered is always that of the last configuration. Each answer that succeeds and is read to its
end delivers one full configuration, with its body and its tag. No other answer delivers a
configuration, and none changes the tag of the channel that gets it. A session that cannot be opened
has asked once, for an answer that is neither. -/
theorem tags_are_of_last_configuration (channel : PollChannel) (first : HttpReply)
    (replies : List HttpReply) :
    let (requests, opened, after) := channel.run first replies
    (∃ later, requests = { channel.target.request with ifNoneMatch := none } :: later) ∧
    (match opened with
      | .ok deliveries => Conversation channel [] (first :: replies) requests deliveries after
      | .error _ => requests.length = 1 ∧ after.etag = none ∧
          channel.payload? first = none ∧ first.confirms = false) ∧
    (∀ (held : PollChannel) (reply : HttpReply), held.payload? reply = none →
      (held.fetch reply).2 = held) := by
  cases hfirst : channel.restart.fetch first with
  | mk fetched held =>
    cases fetched with
    | error error =>
      have fetched := channel.restart.fetched_fetch first
      rw [hfirst] at fetched
      cases fetched with
      | failed error carries confirms =>
        unfold run
        dsimp only
        rw [hfirst]
        exact ⟨⟨[], rfl⟩, ⟨rfl, rfl, carries, confirms⟩, fun _ _ => fetch_eq_self⟩
    | ok message =>
      have whole : Conversation channel.restart [] (first :: replies) _ _ _ :=
        channel.restart.conversation_poll {} (first :: replies) rfl nofun
      have later : ∃ later, (channel.restart.poll (first :: replies) {}).1 =
          { channel.target.request with ifNoneMatch := none } :: later := by
        have going : ({} : PollSession).finished = false := rfl
        obtain ⟨delivery, delivers, -⟩ := channel.restart.exchange going first
        rw [poll_cons rfl delivers]
        exact ⟨_, rfl⟩
      rw [run_eq_poll hfirst replies]
      exact ⟨later, whole.of_restart, fun _ _ => fetch_eq_self⟩

/-- A tag is kept through a confirmation and a failure, and a document without one takes it away. -/
example :
    (({ target := { url := "http://host" } } : PollChannel).run
      (.ok ⟨200, some [0x61], .ok []⟩)
      [.ok ⟨304, none, .ok []⟩, .error "refused", .ok ⟨200, none, .ok []⟩,
        .ok ⟨304, none, .ok []⟩]).1.map (·.ifNoneMatch) =
      [none, some "a", some "a", some "a", none] := by
  decide +kernel

end PollChannel

end FeatureFlags
