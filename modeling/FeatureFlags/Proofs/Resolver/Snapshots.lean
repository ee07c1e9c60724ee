import FeatureFlags.Proofs.Flag.Deltas
import FeatureFlags.Proofs.Flag.WellFormed
import FeatureFlags.Proofs.Resolver.Run
import Mathlib.Data.List.Induction

/-!
# What snapshots hold

An update that can be read says of some flags what they are, and of some keys that there is no flag:
it is an `Amendment`. What the current snapshot holds under a key is said by the last amendment that
mentions the key, where nothing counts that came before the last full document
(`Amendment.ruling`). One amendment more is what `FlagDelta.applyTo` and `FlagSet.parse` make of it
(`get?_of_apply`), so a run of events keeps a resolver in accord with its amendments
(`Reflects.runEvents`). With that, every flag of every snapshot is well formed, and is the one that
was put last under its key (`snapshots_hold_last_amendment`).
-/

namespace FeatureFlags

open Outcome

/-- What an update says of the flags. -/
structure Amendment where
  /-- Whether the flags that are not mentioned go. -/
  full : Bool
  /-- The flags that are put. -/
  flags : Dict FlagDefinition
  /-- The keys of flags that go unless they are put. -/
  removed : List String

namespace Amendment

/-- Whether a flag is put under the key. -/
def lists (amendment : Amendment) (key : String) : Bool := amendment.flags.contains key

/-- Whether anything is said of the key in particular. -/
def mentions (amendment : Amendment) (key : String) : Bool :=
  amendment.lists key || amendment.removed.contains key

/-- The amendments from the last full one on, or all of them if none is full. -/
def sinceFull : List Amendment → List Amendment
  | [] => []
  | amendment :: later => if later.any (·.full) then sinceFull later else amendment :: later

/-- The last amendment that mentions the key, from the last full one on. -/
def ruling (key : String) (amendments : List Amendment) : Option Amendment :=
  (sinceFull amendments).reverse.find? (·.mentions key)

/-- The last amendment that puts a flag under the key. -/
def lastListing (key : String) (amendments : List Amendment) : Option Amendment :=
  amendments.reverse.find? (·.lists key)

variable {amendment : Amendment} {amendments : List Amendment} {key : String}

theorem sinceFull_concat (amendments : List Amendment) (amendment : Amendment) :
    sinceFull (amendments ++ [amendment]) =
      if amendment.full then [amendment] else sinceFull amendments ++ [amendment] := by
  induction amendments with
  | nil => cases amendment.full <;> rfl
  | cons first later ih =>
    simp only [List.cons_append, sinceFull, List.any_append, List.any_cons, List.any_nil,
      Bool.or_false, Bool.or_eq_true, ih]
    cases amendment.full <;> cases later.any (·.full) <;> rfl

/-- A full amendment rules over every key, and a delta over those that it mentions. -/
theorem ruling_concat (amendments : List Amendment) (amendment : Amendment) (key : String) :
    ruling key (amendments ++ [amendment]) =
      if amendment.mentions key then some amendment
      else if amendment.full then none else ruling key amendments := by
  unfold ruling
  rw [sinceFull_concat]
  cases amendment.full <;> cases h : amendment.mentions key <;> simp [h]

theorem lastListing_concat (amendments : List Amendment) (amendment : Amendment) (key : String) :
    lastListing key (amendments ++ [amendment]) =
      if amendment.lists key then some amendment else lastListing key amendments := by
  unfold lastListing
  cases h : amendment.lists key <;> simp [h]

/-- An amendment that rules over a key and puts a flag there is the last one that does so. -/
theorem lastListing_of_ruling (h : ruling key amendments = some amendment)
    (lists : amendment.lists key = true) : lastListing key amendments = some amendment := by
  induction amendments using List.reverseRecOn with
  | nil => cases h
  | append_singleton earlier last ih =>
    rw [ruling_concat] at h
    rw [lastListing_concat]
    cases hlast : last.lists key with
    | true =>
      rw [mentions, hlast, Bool.true_or, if_pos rfl] at h
      rw [if_pos rfl, h]
    | false =>
      rw [if_neg Bool.false_ne_true]
      split at h
      · -- The last amendment removes the key, so it cannot be one that puts a flag there.
        cases h
        rw [hlast] at lists
        cases lists
      · split at h
        · cases h
        · exact ih h

end Amendment

namespace PayloadContent

/-- What the text of an update says of the flags, if it can be read. -/
def amendment? : PayloadContent → Option Amendment
  | full text => (FlagSet.parse text).toOption.map fun set => ⟨true, set.flags, []⟩
  | delta text => (FlagDelta.parse text).toOption.map fun d => ⟨false, d.upserts, d.removed⟩

variable {content : PayloadContent} {current : Option FlagSet}

/-- What an update makes of the current set is what it says of each key, or else what the set had
there before. -/
theorem get?_of_apply {set : FlagSet} (h : content.apply current = .ok set) :
    ∃ amendment, content.amendment? = some amendment ∧ amendment.flags.FlagsWellFormed ∧
      ∀ key, set.flags.get? key = (amendment.flags.get? key).or
        (if amendment.full || amendment.removed.contains key then none
          else current.bind (·.flags.get? key)) := by
  cases content with
  | full text =>
    refine ⟨⟨true, set.flags, []⟩, ?_, FlagSet.wellFormed_of_parse h, fun key => ?_⟩
    · rw [amendment?, show FlagSet.parse text = .ok set from h]
      rfl
    · simp
  | delta text =>
    obtain ⟨delta, hdelta, rfl⟩ := map_eq_ok.1 h
    refine ⟨⟨false, delta.upserts, delta.removed⟩, ?_, FlagDelta.wellFormed_of_parse_delta hdelta,
      fun key => ?_⟩
    · rw [amendment?, hdelta]
      rfl
    · have hbefore : (current.getD .empty).flags.get? key = current.bind (·.flags.get? key) := by
        cases current <;> rfl
      rw [FlagDelta.get?_applyTo, hbefore, Bool.false_or]

theorem amendment?_of_fault {error : DocumentError} (h : content.apply current = .error error) :
    content.amendment? = none := by
  cases content with
  | full text =>
    rw [amendment?, show FlagSet.parse text = .error error from h]
    rfl
  | delta text =>
    cases hdelta : FlagDelta.parse text with
    | ok delta =>
      rw [apply, hdelta] at h
      cases h
    | error _ =>
      rw [amendment?, hdelta]
      rfl

end PayloadContent

/-- What an event says of the flags, if it carries an update that can be read. -/
def StorageEvent.amendment? (event : StorageEvent) : Option Amendment :=
  event.payload?.bind (·.content.amendment?)

/-- The updates among some events that can be read. -/
def StorageEvent.amendments (events : List StorageEvent) : List Amendment :=
  events.filterMap (·.amendment?)

theorem StorageEvent.amendments_cons (event : StorageEvent) (events : List StorageEvent) :
    amendments (event :: events) = event.amendment?.toList ++ amendments events := by
  unfold amendments
  rw [List.filterMap_cons]
  cases event.amendment? <;> rfl

theorem StorageEvent.amendment?_of_doubt {event : StorageEvent} {reason : String}
    (doubt : event.doubt? = some reason) : event.amendment? = none := by
  cases event with
  | ready payload => cases doubt
  | changed payload => cases doubt
  | stale reason => rfl
  | error failure => rfl

namespace Resolver

variable {resolver : Resolver} {past : List Amendment}

/-- The current configuration is what some amendments say, all of which put well-formed flags. -/
structure Reflects (resolver : Resolver) (past : List Amendment) : Prop where
  wellFormed : ∀ amendment ∈ past, amendment.flags.FlagsWellFormed
  get?_eq : ∀ key, resolver.store.get? key =
    (Amendment.ruling key past).bind (·.flags.get? key)

theorem reflects_routed (capacity : Nat) (route : CacheKey → Nat)
    (evaluator : TargetingEvaluator) :
    (routed capacity route evaluator).begin.Reflects [] :=
  ⟨fun _ hmem => absurd hmem List.not_mem_nil, fun _ => rfl⟩

theorem Reflects.accept (reflects : resolver.Reflects past) {payload : SyncPayload}
    {set : FlagSet} (reads : payload.content.apply resolver.store.set? = .ok set) :
    ∃ amendment, payload.content.amendment? = some amendment ∧
      (resolver.accept set payload).2.Reflects (past ++ [amendment]) := by
  obtain ⟨amendment, hamendment, wellFormed, hget⟩ := PayloadContent.get?_of_apply reads
  refine ⟨amendment, hamendment, ?_, fun key => ?_⟩
  · intro other hother
    rcases List.mem_append.1 hother with hother | hother
    · exact reflects.wellFormed other hother
    · rw [List.mem_singleton.1 hother]
      exact wellFormed
  · have hbefore : resolver.store.set?.bind (·.flags.get? key) = resolver.store.get? key := by
      unfold FlagStore.set? FlagStore.get?
      cases resolver.store.snapshot <;> rfl
    have hafter : (resolver.accept set payload).2.store.get? key = set.flags.get? key := rfl
    rw [hafter, hget, hbefore, reflects.get?_eq, Amendment.ruling_concat]
    unfold Amendment.mentions Amendment.lists Dict.contains
    cases hput : amendment.flags.get? key with
    | some flag => simp [hput]
    | none =>
      cases amendment.removed.contains key <;> cases amendment.full <;> simp [hput]

/-- Handling an event keeps a resolver in accord with the amendments, those of the event included. -/
theorem Reflects.handle (reflects : resolver.Reflects past) (event : StorageEvent) :
    (resolver.handle event).2.Reflects (past ++ event.amendment?.toList) := by
  have handling := resolver.handle_handling event
  generalize resolver.handle event = result at handling ⊢
  cases handling with
  | @accepted _ payload set carries reads =>
    obtain ⟨amendment, hamendment, hreflects⟩ := reflects.accept reads
    rw [StorageEvent.amendment?, carries, Option.bind_some, hamendment]
    exact hreflects
  | rejected carries fails =>
    rw [StorageEvent.amendment?, carries, Option.bind_some,
      PayloadContent.amendment?_of_fault fails, Option.toList_none, List.append_nil]
    exact reflects
  | doubted doubt ready =>
    rw [StorageEvent.amendment?_of_doubt doubt, Option.toList_none, List.append_nil]
    exact ⟨reflects.wellFormed, reflects.get?_eq⟩
  | ignored doubt unready =>
    rw [StorageEvent.amendment?_of_doubt doubt, Option.toList_none, List.append_nil]
    exact reflects
  | failed fatal =>
    show Reflects _ (past ++ [])
    rw [List.append_nil]
    exact ⟨reflects.wellFormed, reflects.get?_eq⟩

theorem Reflects.runEvents (reflects : resolver.Reflects past) (events : List StorageEvent) :
    (resolver.runEvents events).2.Reflects (past ++ StorageEvent.amendments events) := by
  induction events generalizing resolver past with
  | nil =>
    show resolver.Reflects (past ++ [])
    rw [List.append_nil]
    exact reflects
  | cons event events ih =>
    rw [StorageEvent.amendments_cons, ← List.append_assoc]
    exact ih (reflects.handle event)

/-- Every snapshot holds what the accepted updates say. Each flag is well formed under its key, and
is the definition that the last update gave which listed the key. There is a flag under a key
exactly if, from the last full update on, the last one that mentions the key lists it. -/
theorem snapshots_hold_last_amendment (capacity : Nat) (route : CacheKey → Nat)
    (evaluator : TargetingEvaluator) (handled : List StorageEvent) {snapshot : Snapshot}
    (published : ((routed capacity route evaluator).begin.runEvents handled).2.store.snapshot =
      some snapshot) :
    let accepted := StorageEvent.amendments handled
    (∀ key flag, snapshot.get? key = some flag →
      flag.WellFormed key ∧
        ∃ last, Amendment.lastListing key accepted = some last ∧
          last.flags.get? key = some flag) ∧
    ∀ key, (snapshot.get? key).isSome = true ↔
      ∃ last, Amendment.ruling key accepted = some last ∧ last.lists key = true := by
  intro accepted
  have reflects : ((routed capacity route evaluator).begin.runEvents handled).2.Reflects accepted :=
    (reflects_routed capacity route evaluator).runEvents handled
  have hget : ∀ key, snapshot.get? key =
      (Amendment.ruling key accepted).bind (·.flags.get? key) := by
    intro key
    rw [← reflects.get?_eq, FlagStore.get?, published]
    rfl
  refine ⟨fun key flag hflag => ?_, fun key => ?_⟩
  · rw [hget] at hflag
    obtain ⟨last, hruling, hput⟩ := Option.bind_eq_some_iff.1 hflag
    have lists : last.lists key = true := by
      unfold Amendment.lists Dict.contains
      rw [hput]
      rfl
    have hlast : Amendment.lastListing key accepted = some last :=
      Amendment.lastListing_of_ruling hruling lists
    have hmem : last ∈ accepted := by
      have := List.mem_of_find?_eq_some hlast
      exact List.mem_reverse.1 this
    exact ⟨reflects.wellFormed last hmem key flag hput, last, hlast, hput⟩
  · rw [hget]
    cases hruling : Amendment.ruling key accepted with
    | none => simp
    | some last => simp [Amendment.lists, Dict.contains]

/-- A delta comes first, then two flags in a full update; after an update that cannot be read, a
delta removes both of them and puts one again. -/
def putAgain : List StorageEvent :=
  let flag := fun key variant => "\"" ++ key ++ "\":\x7b\"state\":\"ENABLED\"," ++
    "\"variants\":\x7b\"" ++ variant ++ "\":1\x7d,\"defaultVariant\":\"" ++ variant ++ "\"\x7d"
  let document := fun flags rest => "\x7b\"flags\":\x7b" ++ flags ++ "\x7d" ++ rest ++ "\x7d"
  [.ready { content := .delta (document (flag "a" "v") "") },
    .changed { content := .full (document (flag "b" "v" ++ "," ++ flag "c" "v") "") },
    .changed { content := .full (document "" ",") },
    .changed { content := .delta (document (flag "b" "w") ",\"removed\":[\"b\",\"c\"]") }]

theorem snapshots_hold_last_amendment_put_again :
    let accepted := StorageEvent.amendments putAgain
    accepted.map (·.full) = [false, true, false] ∧
      ∃ snapshot, ((routed 0 ResolutionCache.spread TargetingRules.evaluator).begin.runEvents
          putAgain).2.store.snapshot = some snapshot ∧
        snapshot.set.flags.keys = ["b"] ∧
        (∃ flag, snapshot.get? "b" = some flag ∧ flag.WellFormed "b" ∧
          ∃ last, Amendment.lastListing "b" accepted = some last ∧
            last.flags.get? "b" = some flag) ∧
        ((snapshot.get? "c").isSome = true ↔
          ∃ last, Amendment.ruling "c" accepted = some last ∧ last.lists "c" = true) := by
  have keys : ((routed 0 ResolutionCache.spread TargetingRules.evaluator).begin.runEvents
      putAgain).2.store.snapshot.map (·.set.flags.keys) = some ["b"] := by decide +kernel
  obtain ⟨snapshot, published, hkeys⟩ := Option.map_eq_some_iff.1 keys
  obtain ⟨holds, present⟩ := snapshots_hold_last_amendment 0 ResolutionCache.spread
    TargetingRules.evaluator putAgain published
  have hmem : "b" ∈ snapshot.set.flags.keys := by rw [hkeys]; exact List.mem_cons_self
  obtain ⟨flag, hflag⟩ := Option.isSome_iff_exists.1 (Dict.mem_keys_iff.1 hmem)
  exact ⟨by decide +kernel, snapshot, published, hkeys, ⟨flag, hflag, holds "b" flag hflag⟩,
    present "c"⟩

end Resolver

end FeatureFlags
