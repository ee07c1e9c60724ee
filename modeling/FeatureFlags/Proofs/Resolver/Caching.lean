import FeatureFlags.Proofs.Resolver.Run

/-!
# Caching is invisible

The answers of a resolver do not depend on the room in its cache. Two resolvers that `Agree` differ
in their caches only. The cache of a resolver is `Sound` for some contexts if each entry for the
current generation is what the evaluation of its flag gives for every one of those contexts that has
its fingerprint: then a lookup that succeeds gives what computing the resolution would have given
(`resolve_fst`). Each call keeps both (`Agree.call`, `Sound.call`), provided that the fingerprint
tells the contexts apart, and so does a run. Even where it does not, each entry was computed for
somebody with its fingerprint (`Traced`).
-/

namespace FeatureFlags

/-- The fingerprint tells the contexts apart. -/
def EvaluationContext.CollisionFree (contexts : List EvaluationContext) : Prop :=
  ∀ a ∈ contexts, ∀ b ∈ contexts, a.fingerprint = b.fingerprint → a = b

theorem Evaluation.eq_value_of_conclude {flagKey : String} {kind : ValueKind}
    {fallback : kind.Carrier} {outcome : Except ResolutionError Evaluation} {evaluated : Evaluated}
    (h : (conclude flagKey kind fallback outcome).2 = some evaluated) :
    outcome = .ok (.value evaluated) := by
  unfold conclude at h
  split at h
  · cases h
  · cases h
  · split at h
    · cases h
      rfl
    · cases h

theorem Evaluation.conclude_value {flagKey : String} {kind : ValueKind} {fallback : kind.Carrier}
    {evaluated : Evaluated} {value : kind.Carrier} (h : evaluated.value.as? kind = some value) :
    conclude flagKey kind fallback (.ok (.value evaluated)) =
      (.ofValue value evaluated, some evaluated) := by
  simp only [conclude, h]

namespace Resolver

/-! ## The cache holds what evaluation gives -/

/-- Every entry for the current generation is what evaluating its flag gives, for each of the
contexts that has its fingerprint. -/
def Sound (contexts : List EvaluationContext) (resolver : Resolver) : Prop :=
  ∀ snapshot key entry, resolver.store.snapshot = some snapshot → resolver.cache.Holds key entry →
    entry.generation = snapshot.generation → ∀ context ∈ contexts,
      context.fingerprint = key.fingerprint →
        snapshot.evaluate key.flagKey key.kind context resolver.evaluator =
          .ok (.value entry.evaluated)

/-- What a resolution that is not in the cache makes of a resolver: the lookup counts as a use, and
what was computed is put into the cache. -/
def keep (resolver : Resolver) (key : CacheKey) (generation : Nat) (evaluated? : Option Evaluated) :
    Resolver :=
  let cache := (resolver.cache.get key generation).2
  { resolver with
    cache := evaluated?.elim cache fun evaluated => cache.put key ⟨generation, evaluated⟩ }

/-- The answer that a resolver without a cache gives. -/
def answer (resolver : Resolver) (flagKey : String) (kind : ValueKind) (fallback : kind.Carrier)
    (context : EvaluationContext) : ResolutionDetails kind.Carrier :=
  match resolver.store.snapshot with
  | none => .ofError fallback resolver.unavailable
  | some snapshot => (resolver.compute snapshot flagKey kind fallback context).1

variable {contexts : List EvaluationContext} {resolver : Resolver} {context : EvaluationContext}

theorem lookup_snd (resolver : Resolver) (key : CacheKey) (generation : Nat) :
    (resolver.lookup key generation).2 =
      { resolver with cache := (resolver.cache.get key generation).2 } := rfl

/-! ## The four ways a resolution goes -/

section

variable {snapshot : Snapshot} {flagKey : String} {kind : ValueKind} {fallback : kind.Carrier}

theorem resolve_of_empty (hs : resolver.store.snapshot = none) :
    resolver.resolve flagKey kind fallback context =
      (.ofError fallback resolver.unavailable, resolver) := by
  simp only [resolve, hs]

theorem resolve_of_disabled (hs : resolver.store.snapshot = some snapshot)
    (he : resolver.cache.isEnabled = false) :
    resolver.resolve flagKey kind fallback context =
      ((resolver.compute snapshot flagKey kind fallback context).1, resolver) := by
  simp only [resolve, hs, he, Bool.false_eq_true, if_false]

theorem resolve_of_hit {details : ResolutionDetails kind.Carrier}
    (hs : resolver.store.snapshot = some snapshot) (he : resolver.cache.isEnabled = true)
    (hl : (resolver.lookup ⟨flagKey, kind, context.fingerprint⟩ snapshot.generation).1 =
      some details) :
    resolver.resolve flagKey kind fallback context =
      (details,
        (resolver.lookup ⟨flagKey, kind, context.fingerprint⟩ snapshot.generation).2) := by
  simp only [resolve, hs, he, if_true]
  split
  · rename_i found next h
    rw [h] at hl ⊢
    cases hl
    rfl
  · rename_i next h
    rw [h] at hl
    cases hl

theorem resolve_of_miss (hs : resolver.store.snapshot = some snapshot)
    (he : resolver.cache.isEnabled = true)
    (hl : (resolver.lookup ⟨flagKey, kind, context.fingerprint⟩ snapshot.generation).1 = none) :
    resolver.resolve flagKey kind fallback context =
      ((resolver.compute snapshot flagKey kind fallback context).1,
        resolver.keep ⟨flagKey, kind, context.fingerprint⟩ snapshot.generation
          (resolver.compute snapshot flagKey kind fallback context).2) := by
  simp only [resolve, hs, he, if_true]
  split
  · rename_i found next h
    rw [h] at hl
    cases hl
  · rename_i next h
    have hn : next = _ := (congrArg Prod.snd h).symm.trans (lookup_snd _ _ _)
    rw [hn]
    rfl

end

/-- A lookup that succeeds in a sound cache gives what computing the resolution gives. -/
theorem Sound.lookup (sound : resolver.Sound contexts) {snapshot : Snapshot} {flagKey : String}
    {kind : ValueKind} {fallback : kind.Carrier} {details : ResolutionDetails kind.Carrier}
    (hs : resolver.store.snapshot = some snapshot) (hc : context ∈ contexts)
    (h : (resolver.lookup ⟨flagKey, kind, context.fingerprint⟩ snapshot.generation).1 =
      some details) :
    details = (resolver.compute snapshot flagKey kind fallback context).1 := by
  obtain ⟨entry, hget, hentry⟩ := Option.bind_eq_some_iff.1 h
  obtain ⟨value, hvalue, rfl⟩ := Option.map_eq_some_iff.1 hentry
  obtain ⟨hheld, hgen, -⟩ := ResolutionCache.holds_of_get hget
  have he := sound snapshot _ entry hs hheld hgen context hc rfl
  unfold compute
  rw [he, Evaluation.conclude_value hvalue]

/-- With a sound cache, a resolution is what a resolver without a cache answers. -/
theorem resolve_fst (sound : resolver.Sound contexts) (hc : context ∈ contexts) (flagKey : String)
    (kind : ValueKind) (fallback : kind.Carrier) :
    (resolver.resolve flagKey kind fallback context).1 =
      resolver.answer flagKey kind fallback context := by
  unfold answer
  split
  · rename_i hs
    rw [resolve_of_empty hs]
  · rename_i snapshot hs
    cases he : resolver.cache.isEnabled with
    | false => rw [resolve_of_disabled hs he]
    | true =>
      cases hl : (resolver.lookup ⟨flagKey, kind, context.fingerprint⟩ snapshot.generation).1 with
      | none => rw [resolve_of_miss hs he hl]
      | some details =>
        rw [resolve_of_hit hs he hl]
        exact sound.lookup hs hc hl

/-- What the cache holds after a resolution that was not in it: besides former entries only the
evaluation of the flag, for the generation of the cache. -/
theorem holds_keep {key k : CacheKey} {generation : Nat} {evaluated? : Option Evaluated}
    {entry : CachedResolution} (h : (resolver.keep key generation evaluated?).cache.Holds k entry) :
    resolver.cache.Holds k entry ∨ k = key ∧ evaluated? = some entry.evaluated ∧
      entry.generation = resolver.cache.generation := by
  cases evaluated? with
  | none => exact .inl (ResolutionCache.holds_get h)
  | some evaluated =>
    rcases ResolutionCache.holds_put h with h | ⟨rfl, rfl, hgen⟩
    · exact .inl (ResolutionCache.holds_get h)
    · rw [ResolutionCache.get_generation] at hgen
      exact .inr ⟨rfl, rfl, hgen⟩

theorem generation_keep (key : CacheKey) (generation : Nat) (evaluated? : Option Evaluated) :
    (resolver.keep key generation evaluated?).cache.generation = resolver.cache.generation := by
  cases evaluated? <;> simp [keep]

/-- A resolution changes nothing but the cache, and puts nothing into it but the evaluation of its
flag for the generation of the cache. -/
theorem resolve_snd (resolver : Resolver) (flagKey : String) (kind : ValueKind)
    (fallback : kind.Carrier) (context : EvaluationContext) :
    ∃ cache, (resolver.resolve flagKey kind fallback context).2 = { resolver with cache } ∧
      cache.generation = resolver.cache.generation ∧
      ∀ key entry, cache.Holds key entry → resolver.cache.Holds key entry ∨
        entry.generation = resolver.cache.generation ∧
        ∃ snapshot, resolver.store.snapshot = some snapshot ∧
          key = ⟨flagKey, kind, context.fingerprint⟩ ∧
          snapshot.evaluate flagKey kind context resolver.evaluator =
            .ok (.value entry.evaluated) := by
  cases hs : resolver.store.snapshot with
  | none => exact ⟨_, by rw [resolve_of_empty hs], rfl, fun _ _ h => .inl h⟩
  | some snapshot =>
    cases he : resolver.cache.isEnabled with
    | false => exact ⟨_, by rw [resolve_of_disabled hs he], rfl, fun _ _ h => .inl h⟩
    | true =>
      cases hl : (resolver.lookup ⟨flagKey, kind, context.fingerprint⟩ snapshot.generation).1 with
      | none =>
        refine ⟨_, by rw [resolve_of_miss hs he hl]; rfl, generation_keep _ _ _,
          fun key entry held => ?_⟩
        rcases holds_keep held with held | ⟨hk, hv, hgen⟩
        · exact .inl held
        · exact .inr ⟨hgen, snapshot, rfl, hk, Evaluation.eq_value_of_conclude hv⟩
      | some details =>
        exact ⟨_, by rw [resolve_of_hit hs he hl, lookup_snd], ResolutionCache.get_generation _ _ _,
          fun _ _ h => .inl (ResolutionCache.holds_get h)⟩

/-! ## What a call keeps -/

theorem Sound.resolve (sound : resolver.Sound contexts)
    (free : EvaluationContext.CollisionFree contexts) (hc : context ∈ contexts) (flagKey : String)
    (kind : ValueKind) (fallback : kind.Carrier) :
    (resolver.resolve flagKey kind fallback context).2.Sound contexts := by
  obtain ⟨cache, hr, -, hcache⟩ := resolver.resolve_snd flagKey kind fallback context
  rw [hr]
  intro snapshot key entry hs held hgen other ho hf
  rcases hcache key entry held with held | ⟨-, taken, ht, rfl, he⟩
  · exact sound snapshot key entry hs held hgen other ho hf
  · -- The entry is new. Only the context that it was computed for has its fingerprint.
    cases free other ho context hc hf
    cases ht.symm.trans hs
    exact he

/-- Handling an event empties the cache, or changes nothing but the state and the fatal message. -/
theorem handle_snd (resolver : Resolver) (event : StorageEvent) :
    (∀ key entry, ¬ (resolver.handle event).2.cache.Holds key entry) ∨
      ∃ state fatal, (resolver.handle event).2 = { resolver with state, fatal } := by
  have handling := resolver.handle_handling event
  generalize resolver.handle event = result at handling ⊢
  cases handling with
  | accepted carries reads => exact .inl fun _ _ => ResolutionCache.not_holds_invalidate _
  | rejected carries fails => exact .inr ⟨_, _, rfl⟩
  | doubted doubt ready => exact .inr ⟨_, _, rfl⟩
  | ignored doubt unready => exact .inr ⟨_, _, rfl⟩
  | failed fatal => exact .inr ⟨_, _, rfl⟩

theorem Sound.handle (sound : resolver.Sound contexts) (event : StorageEvent) :
    (resolver.handle event).2.Sound contexts := by
  rcases resolver.handle_snd event with empty | ⟨state, fatal, hhandle⟩
  · exact fun _ key entry _ held => absurd held (empty key entry)
  · rw [hhandle]
    exact sound

theorem Sound.call (sound : resolver.Sound contexts)
    (free : EvaluationContext.CollisionFree contexts) {call : ResolverCall}
    (hc : ∀ context, call.context? = some context → context ∈ contexts) :
    (resolver.call call).2.Sound contexts := by
  cases call with
  | begin => exact sound
  | handle event => exact sound.handle event
  | resolve flagKey kind fallback context =>
    exact sound.resolve free (hc context rfl) flagKey kind fallback
  | retire =>
    unfold Resolver.call retire
    dsimp only
    split <;> exact sound

theorem sound_routed (contexts : List EvaluationContext) (capacity : Nat)
    (route : CacheKey → Nat) (evaluator : TargetingEvaluator) :
    (routed capacity route evaluator).Sound contexts := fun _ _ _ hs => nomatch hs

/-! ## Whom the cache serves -/

/-- Every entry for the current generation is what evaluating its flag gives for somebody with its
fingerprint. -/
def Traced (resolver : Resolver) : Prop :=
  ∀ snapshot key entry, resolver.store.snapshot = some snapshot → resolver.cache.Holds key entry →
    entry.generation = snapshot.generation → ∃ context : EvaluationContext,
      context.fingerprint = key.fingerprint ∧
        snapshot.evaluate key.flagKey key.kind context resolver.evaluator =
          .ok (.value entry.evaluated)

theorem Traced.handle (traced : resolver.Traced) (event : StorageEvent) :
    (resolver.handle event).2.Traced := by
  rcases resolver.handle_snd event with empty | ⟨state, fatal, hhandle⟩
  · exact fun _ key entry _ held => absurd held (empty key entry)
  · rw [hhandle]
    exact traced

theorem Traced.resolve (traced : resolver.Traced) (flagKey : String) (kind : ValueKind)
    (fallback : kind.Carrier) (context : EvaluationContext) :
    (resolver.resolve flagKey kind fallback context).2.Traced := by
  obtain ⟨cache, hr, -, hcache⟩ := resolver.resolve_snd flagKey kind fallback context
  rw [hr]
  intro snapshot key entry hs held hgen
  rcases hcache key entry held with held | ⟨-, taken, ht, rfl, he⟩
  · exact traced snapshot key entry hs held hgen
  · cases ht.symm.trans hs
    exact ⟨context, rfl, he⟩

theorem Traced.retire (traced : resolver.Traced) : resolver.retire.Traced := by
  unfold Resolver.retire
  split
  · exact traced
  · exact traced

theorem Traced.call (traced : resolver.Traced) (call : ResolverCall) :
    (resolver.call call).2.Traced := by
  cases call with
  | begin => exact traced
  | handle event => exact traced.handle event
  | resolve flagKey kind fallback context => exact traced.resolve flagKey kind fallback context
  | retire => exact traced.retire

theorem Traced.run (traced : resolver.Traced) (calls : List ResolverCall) :
    (resolver.run calls).2.Traced := by
  induction calls generalizing resolver with
  | nil => exact traced
  | cons call calls ih => exact ih (traced.call call)

theorem traced_routed (capacity : Nat) (route : CacheKey → Nat) (evaluator : TargetingEvaluator) :
    (routed capacity route evaluator).Traced := fun _ _ _ hs => nomatch hs

/-- With a traced cache, an answer is what evaluating the flag gives for somebody with the
fingerprint of the caller. -/
theorem Traced.resolve_fst (traced : resolver.Traced) {snapshot : Snapshot}
    (hs : resolver.store.snapshot = some snapshot) (flagKey : String) (kind : ValueKind)
    (fallback : kind.Carrier) (context : EvaluationContext) :
    ∃ asker : EvaluationContext, asker.fingerprint = context.fingerprint ∧
      (resolver.resolve flagKey kind fallback context).1 =
        (resolver.compute snapshot flagKey kind fallback asker).1 := by
  cases he : resolver.cache.isEnabled with
  | false => exact ⟨context, rfl, by rw [resolve_of_disabled hs he]⟩
  | true =>
    cases hl : (resolver.lookup ⟨flagKey, kind, context.fingerprint⟩ snapshot.generation).1 with
    | none => exact ⟨context, rfl, by rw [resolve_of_miss hs he hl]⟩
    | some details =>
      obtain ⟨entry, hget, hentry⟩ := Option.bind_eq_some_iff.1 hl
      obtain ⟨value, hvalue, rfl⟩ := Option.map_eq_some_iff.1 hentry
      obtain ⟨held, hgen, -⟩ := ResolutionCache.holds_of_get hget
      obtain ⟨asker, hasker, hevaluate⟩ := traced snapshot _ entry hs held hgen
      refine ⟨asker, hasker, ?_⟩
      rw [resolve_of_hit hs he hl, compute, hevaluate, Evaluation.conclude_value hvalue]

/-- Two resolvers differ in their caches only. -/
structure Agree (a b : Resolver) : Prop where
  store : a.store = b.store
  state : a.state = b.state
  fatal : a.fatal = b.fatal
  evaluator : a.evaluator = b.evaluator

namespace Agree

variable {a b : Resolver}

theorem refl (a : Resolver) : a.Agree a := ⟨rfl, rfl, rfl, rfl⟩

theorem trans {c : Resolver} (h : a.Agree b) (h' : b.Agree c) : a.Agree c :=
  ⟨h.store.trans h'.store, h.state.trans h'.state, h.fatal.trans h'.fatal,
    h.evaluator.trans h'.evaluator⟩

theorem begin (h : a.Agree b) : a.begin.Agree b.begin := ⟨h.store, rfl, h.fatal, h.evaluator⟩

theorem retire (h : a.Agree b) : a.retire.Agree b.retire := by
  unfold Resolver.retire
  rw [h.state]
  split
  · exact h
  · exact ⟨h.store, rfl, h.fatal, h.evaluator⟩

theorem markStale (h : a.Agree b) (reason : String) :
    (a.markStale reason).1 = (b.markStale reason).1 ∧
      (a.markStale reason).2.Agree (b.markStale reason).2 := by
  unfold Resolver.markStale
  rw [h.state]
  split
  · exact ⟨rfl, h.store, rfl, h.fatal, h.evaluator⟩
  · exact ⟨rfl, h⟩

theorem announce (h : a.Agree b) (changed : List String) (origin : SyncMetadata) :
    a.announce changed origin = b.announce changed origin := by
  unfold Resolver.announce
  rw [h.store, h.state]

theorem applyPayload (h : a.Agree b) (payload : SyncPayload) :
    (a.applyPayload payload).1 = (b.applyPayload payload).1 ∧
      (a.applyPayload payload).2.Agree (b.applyPayload payload).2 := by
  unfold Resolver.applyPayload
  rw [h.store]
  split
  · unfold accept
    rw [h.store]
    exact ⟨h.announce _ _, rfl, rfl, h.fatal, h.evaluator⟩
  · exact ⟨rfl, h⟩

theorem handle (h : a.Agree b) (event : StorageEvent) :
    (a.handle event).1 = (b.handle event).1 ∧
      (a.handle event).2.Agree (b.handle event).2 := by
  cases event with
  | ready payload => exact h.applyPayload payload
  | changed payload => exact h.applyPayload payload
  | stale reason => exact h.markStale reason
  | error failure =>
    simp only [Resolver.handle, handleFailure]
    split
    · exact ⟨rfl, h.store, rfl, rfl, h.evaluator⟩
    · exact h.markStale failure.message

theorem answer (h : a.Agree b) (flagKey : String) (kind : ValueKind) (fallback : kind.Carrier)
    (context : EvaluationContext) :
    a.answer flagKey kind fallback context = b.answer flagKey kind fallback context := by
  unfold Resolver.answer unavailable fatalMessage compute
  rw [h.store, h.state, h.fatal, h.evaluator]

theorem resolve (h : a.Agree b) (flagKey : String) (kind : ValueKind) (fallback : kind.Carrier)
    (context : EvaluationContext) :
    (a.resolve flagKey kind fallback context).2.Agree
      (b.resolve flagKey kind fallback context).2 := by
  obtain ⟨_, ha, -⟩ := a.resolve_snd flagKey kind fallback context
  obtain ⟨_, hb, -⟩ := b.resolve_snd flagKey kind fallback context
  rw [ha, hb]
  exact ⟨h.store, h.state, h.fatal, h.evaluator⟩

/-- Resolvers that differ in their caches only give the same answer to a call, and differ in their
caches only afterwards. -/
theorem call (h : a.Agree b) {contexts : List EvaluationContext} (ha : a.Sound contexts)
    (hb : b.Sound contexts) {call : ResolverCall}
    (hc : ∀ context, call.context? = some context → context ∈ contexts) :
    (a.call call).1 = (b.call call).1 ∧ (a.call call).2.Agree (b.call call).2 := by
  cases call with
  | begin => exact ⟨rfl, h.begin⟩
  | handle event => exact h.handle event
  | resolve flagKey kind fallback context =>
    refine ⟨?_, h.resolve flagKey kind fallback context⟩
    simp only [Resolver.call]
    rw [resolve_fst ha (hc context rfl), resolve_fst hb (hc context rfl), h.answer]
  | retire => exact ⟨rfl, h.retire⟩

/-- Resolvers that differ in their caches only give the same answers to all calls of a run. -/
theorem run {contexts : List EvaluationContext} (free : EvaluationContext.CollisionFree contexts)
    {calls : List ResolverCall} (hc : ∀ call ∈ calls, ∀ context, call.context? = some context →
      context ∈ contexts) (h : a.Agree b) (ha : a.Sound contexts) (hb : b.Sound contexts) :
    (a.run calls).1 = (b.run calls).1 := by
  induction calls generalizing a b with
  | nil => rfl
  | cons call calls ih =>
    have hfirst := hc call List.mem_cons_self
    obtain ⟨hanswer, hnext⟩ := h.call ha hb hfirst
    have hlater := ih (fun call hm => hc call (List.mem_cons_of_mem _ hm)) hnext
      (ha.call free hfirst) (hb.call free hfirst)
    simp only [Resolver.run, hanswer, hlater]

end Agree

/-- Caching is invisible: if the fingerprint tells the contexts of a run apart, the answers are
those of a resolver without a cache. -/
theorem run_answers_eq_uncached (capacity : Nat) (route : CacheKey → Nat)
    (evaluator : TargetingEvaluator) (calls : List ResolverCall)
    (free : EvaluationContext.CollisionFree (calls.filterMap (·.context?))) :
    ((routed capacity route evaluator).run calls).1 = ((new 0 evaluator).run calls).1 := by
  refine Agree.run free (fun call hm context h => List.mem_filterMap.2 ⟨call, hm, h⟩)
    ⟨rfl, rfl, rfl, rfl⟩ (sound_routed _ _ _ _) ?_
  rw [new_eq_routed]
  exact sound_routed _ _ _ _

/-- A run with a hit: two callers ask for a flag that only one of them is served, and the first one
asks again. -/
theorem run_answers_eq_uncached_two_callers :
    let document := "\x7b\"flags\":\x7b\"f\":\x7b\"state\":\"ENABLED\"," ++
      "\"variants\":\x7b\"on\":true,\"off\":false\x7d," ++
      "\"defaultVariant\":\"off\",\"targeting\":1\x7d\x7d\x7d"
    let payload : SyncPayload := { content := .full document }
    let evaluator : TargetingEvaluator := fun _ context =>
      .ok (context.targetingKey.map fun key => if key = "anna" then "on" else "off")
    let anna : EvaluationContext := { targetingKey := some "anna" }
    let bert : EvaluationContext := { targetingKey := some "bert" }
    let calls : List ResolverCall := [.begin, .handle (.ready payload),
      .resolve "f" .boolean false anna, .resolve "f" .boolean false bert,
      .resolve "f" .boolean false anna]
    EvaluationContext.CollisionFree (calls.filterMap (·.context?)) ∧
      ((new 2 evaluator).run calls).2.cache.hits = 1 ∧
      ((new 2 evaluator).run calls).1 = ((new 0 evaluator).run calls).1 := by
  intro document payload evaluator anna bert calls
  have hne : anna.fingerprint ≠ bert.fingerprint := by decide +kernel
  have free : EvaluationContext.CollisionFree [anna, bert, anna] := by
    intro a ha b hb h
    simp only [List.mem_cons, List.not_mem_nil, or_false] at ha hb
    rcases ha with rfl | rfl | rfl <;> rcases hb with rfl | rfl | rfl <;>
      first | rfl | exact absurd h hne | exact absurd h.symm hne
  exact ⟨free, by decide +kernel, run_answers_eq_uncached 2 _ _ calls free⟩

end Resolver

end FeatureFlags
