import FeatureFlags.Proofs.Resolver.Caching

/-!
# Resolutions that race an update

A resolver is used by many resolutions and one writer at once. A `SharedResolver` goes from one
atomic operation to the next: a resolution takes the snapshot, looks into the cache, evaluates its
flag and puts the result into the cache; an accepted update invalidates the cache and then replaces
the snapshot. A list of `Move`s is any interleaving of these operations; one that is not due is
ignored. On its own, a resolution is `Resolver.resolve` (`run_resolution`) and an update is
`Resolver.applyPayload` (`run_update`).

`Valid` is the invariant. Between the two halves of an update the cache is one generation ahead of
the store, so that nobody can use it; otherwise both have the same generation. Every entry was
computed by a resolution whose snapshot has the generation of the cache, and all snapshots of the
present generation are the one in the store. So a lookup that succeeds gives what was computed
from the very snapshot that its resolution has taken (`hits_and_entries`).
-/

namespace FeatureFlags

/-- A resolution that is going on. -/
structure Inquiry where
  flagKey : String
  kind : ValueKind
  fallback : kind.Carrier
  context : EvaluationContext
  /-- The snapshot that it has taken. -/
  snapshot : Snapshot
  /-- What the lookup gave, if there was one. -/
  found : Option (Option CachedResolution) := none
  /-- What evaluating the flag gave, if that was done. -/
  outcome : Option (Except ResolutionError Evaluation) := none

namespace Inquiry

def key (inquiry : Inquiry) : CacheKey :=
  ⟨inquiry.flagKey, inquiry.kind, inquiry.context.fingerprint⟩

/-- What the cache served. -/
def served? (inquiry : Inquiry) : Option (ResolutionDetails inquiry.kind.Carrier) :=
  inquiry.found.join.bind fun entry =>
    (entry.evaluated.value.as? inquiry.kind).map fun value => .ofValue value entry.evaluated

/-- The lookup gave nothing to serve, and the flag has to be evaluated. -/
def isUnserved (inquiry : Inquiry) : Bool :=
  inquiry.found.isSome && inquiry.served?.isNone && inquiry.outcome.isNone

/-- What comes of evaluating the flag. -/
def concluded? (inquiry : Inquiry) :
    Option (ResolutionDetails inquiry.kind.Carrier × Option Evaluated) :=
  inquiry.outcome.map (Evaluation.conclude inquiry.flagKey inquiry.kind inquiry.fallback)

/-- The resolution that is returned. -/
def details? (inquiry : Inquiry) : Option (ResolutionDetails inquiry.kind.Carrier) :=
  inquiry.served?.or (inquiry.concluded?.map (·.1))

/-- What is put into the cache. -/
def kept? (inquiry : Inquiry) : Option Evaluated := inquiry.concluded?.bind (·.2)

/-- The flag is evaluated against the snapshot. -/
def evaluate (inquiry : Inquiry) (evaluator : TargetingEvaluator) :
    Except ResolutionError Evaluation :=
  inquiry.snapshot.evaluate inquiry.flagKey inquiry.kind inquiry.context evaluator

/-- An entry is what the resolution computed from its snapshot. -/
structure Explains (inquiry : Inquiry) (key : CacheKey) (entry : CachedResolution) : Prop where
  key_eq : inquiry.key = key
  generation : inquiry.snapshot.generation = entry.generation
  kept : inquiry.kept? = some entry.evaluated

end Inquiry

/-- An atomic operation. -/
inductive Move where
  /-- A resolution begins, and takes the snapshot. -/
  | take (flagKey : String) (kind : ValueKind) (fallback : kind.Carrier)
      (context : EvaluationContext)
  /-- The resolution with a number looks into the cache. -/
  | lookup (index : Nat)
  | evaluate (index : Nat)
  | put (index : Nat)
  /-- The writer accepts an update, and invalidates the cache. -/
  | invalidate (payload : SyncPayload)
  /-- The writer replaces the snapshot. -/
  | replace

/-- A resolver that resolutions and a writer use at once. -/
structure SharedResolver where
  resolver : Resolver
  /-- The update for which the cache is invalidated, but which is not in the store yet. -/
  swapping : Option (FlagSet × SyncPayload) := none
  inquiries : List Inquiry := []

namespace SharedResolver

/-- The resolution with a number goes on. -/
def advance (shared : SharedResolver) (index : Nat)
    (f : Inquiry → Option (Inquiry × ResolutionCache)) : SharedResolver :=
  match shared.inquiries[index]?.bind f with
  | none => shared
  | some (inquiry, cache) =>
    { shared with
      resolver.cache := cache
      inquiries := shared.inquiries.set index inquiry }

/-- An atomic operation; one that is not due changes nothing. -/
def step (shared : SharedResolver) : Move → SharedResolver
  | .take flagKey kind fallback context =>
    match shared.resolver.store.snapshot with
    | none => shared
    | some snapshot =>
      { shared with
        inquiries := shared.inquiries ++ [{ flagKey, kind, fallback, context, snapshot }] }
  | .lookup index =>
    shared.advance index fun inquiry =>
      if inquiry.found.isSome then none
      else
        let (hit, cache) := shared.resolver.cache.get inquiry.key inquiry.snapshot.generation
        some ({ inquiry with found := some hit }, cache)
  | .evaluate index =>
    shared.advance index fun inquiry =>
      if inquiry.isUnserved then
        some ({ inquiry with outcome := some (inquiry.evaluate shared.resolver.evaluator) },
          shared.resolver.cache)
      else none
  | .put index =>
    shared.advance index fun inquiry =>
      inquiry.kept?.map fun evaluated =>
        (inquiry,
          shared.resolver.cache.put inquiry.key ⟨inquiry.snapshot.generation, evaluated⟩)
  | .invalidate payload =>
    match shared.swapping, payload.content.apply shared.resolver.store.set? with
    | none, .ok set =>
      { shared with
        resolver.cache :=
          shared.resolver.cache.invalidate shared.resolver.store.nextGeneration
        swapping := some (set, payload) }
    | _, _ => shared
  | .replace =>
    match shared.swapping with
    | none => shared
    | some (set, payload) =>
      { shared with
        resolver.store := shared.resolver.store.replace set payload
        resolver.state := .ready
        swapping := none }

/-- Any interleaving of atomic operations. -/
def run (shared : SharedResolver) (moves : List Move) : SharedResolver := moves.foldl step shared

/-- Nobody uses the resolver yet. -/
def start (capacity : Nat) (route : CacheKey → Nat) (evaluator : TargetingEvaluator) :
    SharedResolver :=
  { resolver := .routed capacity route evaluator }

/-! ## What an operation does -/

/-- All that an atomic operation can do. -/
inductive Progress (shared : SharedResolver) : SharedResolver → Prop
  | idle : Progress shared shared
  | taken {inquiry : Inquiry} (takes : shared.resolver.store.snapshot = some inquiry.snapshot)
      (fresh : inquiry.found = none ∧ inquiry.outcome = none) :
      Progress shared { shared with inquiries := shared.inquiries ++ [inquiry] }
  | looked {index : Nat} {inquiry : Inquiry} (present : shared.inquiries[index]? = some inquiry)
      (fresh : inquiry.found = none) :
      Progress shared { shared with
        resolver.cache :=
          (shared.resolver.cache.get inquiry.key inquiry.snapshot.generation).2
        inquiries := shared.inquiries.set index { inquiry with
          found :=
            some (shared.resolver.cache.get inquiry.key inquiry.snapshot.generation).1 } }
  | evaluated {index : Nat} {inquiry : Inquiry}
      (present : shared.inquiries[index]? = some inquiry) (fresh : inquiry.outcome = none) :
      Progress shared { shared with
        inquiries := shared.inquiries.set index { inquiry with
          outcome := some (inquiry.evaluate shared.resolver.evaluator) } }
  | stored {inquiry : Inquiry} {evaluated : Evaluated} (present : inquiry ∈ shared.inquiries)
      (kept : inquiry.kept? = some evaluated) :
      Progress shared { shared with
        resolver.cache :=
          shared.resolver.cache.put inquiry.key ⟨inquiry.snapshot.generation, evaluated⟩ }
  | invalidated {set : FlagSet} {payload : SyncPayload} (quiet : shared.swapping = none) :
      Progress shared { shared with
        resolver.cache :=
          shared.resolver.cache.invalidate shared.resolver.store.nextGeneration
        swapping := some (set, payload) }
  | replaced {set : FlagSet} {payload : SyncPayload}
      (due : shared.swapping = some (set, payload)) :
      Progress shared { shared with
        resolver.store := shared.resolver.store.replace set payload
        resolver.state := .ready
        swapping := none }

theorem advance_of_none {shared : SharedResolver} {index : Nat}
    {f : Inquiry → Option (Inquiry × ResolutionCache)}
    (h : shared.inquiries[index]?.bind f = none) : shared.advance index f = shared := by
  unfold advance
  rw [h]

theorem advance_of_some {shared : SharedResolver} {index : Nat}
    {f : Inquiry → Option (Inquiry × ResolutionCache)} {inquiry next : Inquiry}
    {cache : ResolutionCache} (present : shared.inquiries[index]? = some inquiry)
    (h : f inquiry = some (next, cache)) :
    shared.advance index f = { shared with
      resolver.cache := cache
      inquiries := shared.inquiries.set index next } := by
  unfold advance
  rw [present, Option.bind_some, h]

/-- If going on with each of the resolutions is progress, then `advance` is. -/
theorem progress_advance {shared : SharedResolver} {index : Nat}
    {f : Inquiry → Option (Inquiry × ResolutionCache)}
    (h : ∀ inquiry next cache, shared.inquiries[index]? = some inquiry →
      f inquiry = some (next, cache) →
        Progress shared { shared with
          resolver.cache := cache
          inquiries := shared.inquiries.set index next }) :
    Progress shared (shared.advance index f) := by
  cases hb : shared.inquiries[index]?.bind f with
  | none =>
    rw [advance_of_none hb]
    exact .idle
  | some result =>
    obtain ⟨inquiry, present, hf⟩ := Option.bind_eq_some_iff.1 hb
    rw [advance_of_some present hf]
    exact h inquiry _ _ present hf

theorem progress_step (shared : SharedResolver) (move : Move) :
    Progress shared (shared.step move) := by
  cases move with
  | take flagKey kind fallback context =>
    simp only [step]
    split
    · exact .idle
    · rename_i snapshot takes
      exact .taken takes ⟨rfl, rfl⟩
  | lookup index =>
    refine progress_advance fun inquiry next cache present h => ?_
    split at h
    · cases h
    · rename_i fresh
      cases h
      exact .looked present (Option.not_isSome_iff_eq_none.1 fresh)
  | evaluate index =>
    refine progress_advance fun inquiry next cache present h => ?_
    split at h
    · rename_i unserved
      cases h
      simp only [Inquiry.isUnserved, Bool.and_eq_true] at unserved
      exact .evaluated present (Option.isNone_iff_eq_none.1 unserved.2)
    · cases h
  | put index =>
    refine progress_advance fun inquiry next cache present h => ?_
    obtain ⟨evaluated, kept, h⟩ := Option.map_eq_some_iff.1 h
    cases h
    obtain ⟨bound, rfl⟩ := List.getElem?_eq_some_iff.1 present
    rw [List.set_getElem_self]
    exact .stored (List.getElem_mem bound) kept
  | invalidate payload =>
    simp only [step]
    split
    · rename_i quiet accepted
      exact .invalidated quiet
    · exact .idle
  | replace =>
    simp only [step]
    split
    · exact .idle
    · rename_i due
      exact .replaced due

/-! ## The invariant -/

/-- What a resolution has found out is right. -/
structure Fits (shared : SharedResolver) (inquiry : Inquiry) : Prop where
  /-- A snapshot of the present generation is the one in the store. -/
  current : inquiry.snapshot.generation < shared.resolver.store.generation ∨
    shared.resolver.store.snapshot = some inquiry.snapshot
  outcome : ∀ outcome, inquiry.outcome = some outcome →
    outcome = inquiry.evaluate shared.resolver.evaluator
  /-- What the cache served was computed from the resolution's own snapshot. -/
  hit : ∀ entry, inquiry.found = some (some entry) → ∃ asker ∈ shared.inquiries,
    asker.snapshot = inquiry.snapshot ∧ asker.Explains inquiry.key entry

/-- How the store, the cache and the resolutions that are going on fit together. -/
structure Valid (shared : SharedResolver) : Prop where
  /-- The cache is ahead of the store in the middle of an update only. -/
  generation : shared.resolver.cache.generation =
    shared.resolver.store.generation + if shared.swapping.isSome then 1 else 0
  /-- Every entry was computed from a snapshot of the cache's generation. -/
  entry : ∀ key entry, shared.resolver.cache.Holds key entry →
    entry.generation = shared.resolver.cache.generation ∧
      ∃ asker ∈ shared.inquiries, asker.Explains key entry
  fits : ∀ inquiry ∈ shared.inquiries, shared.Fits inquiry

theorem generation_of_snapshot {store : FlagStore} {snapshot : Snapshot}
    (h : store.snapshot = some snapshot) : store.generation = snapshot.generation := by
  simp [FlagStore.generation, h]

variable {shared : SharedResolver}

/-- A later state of the resolutions has all former ones with what they have computed. -/
def Continues (before after : List Inquiry) : Prop :=
  ∀ asker ∈ before, ∃ later ∈ after, later.snapshot = asker.snapshot ∧ later.key = asker.key ∧
    ∀ evaluated, asker.kept? = some evaluated → later.kept? = some evaluated

theorem Continues.refl (inquiries : List Inquiry) : Continues inquiries inquiries :=
  fun asker h => ⟨asker, h, rfl, rfl, fun _ h => h⟩

theorem continues_append (inquiries more : List Inquiry) :
    Continues inquiries (inquiries ++ more) :=
  fun asker h => ⟨asker, List.mem_append_left _ h, rfl, rfl, fun _ h => h⟩

theorem continues_set {inquiries : List Inquiry} {index : Nat} {inquiry next : Inquiry}
    (present : inquiries[index]? = some inquiry) (hs : next.snapshot = inquiry.snapshot)
    (hk : next.key = inquiry.key)
    (hv : ∀ evaluated, inquiry.kept? = some evaluated → next.kept? = some evaluated) :
    Continues inquiries (inquiries.set index next) := by
  obtain ⟨bound, rfl⟩ := List.getElem?_eq_some_iff.1 present
  intro asker ha
  obtain ⟨i, hi, rfl⟩ := List.getElem_of_mem ha
  by_cases hindex : index = i
  · subst hindex
    exact ⟨next, List.mem_set bound _, hs, hk, hv⟩
  · refine ⟨inquiries[i], ?_, rfl, rfl, fun _ h => h⟩
    rw [← List.getElem_set_ne hindex (by simpa using hi)]
    exact List.getElem_mem _

theorem Continues.explains {before after : List Inquiry} (h : Continues before after)
    {asker : Inquiry} (ha : asker ∈ before) {key : CacheKey} {entry : CachedResolution}
    (he : asker.Explains key entry) :
    ∃ later ∈ after, later.snapshot = asker.snapshot ∧ later.Explains key entry := by
  obtain ⟨later, hl, hs, hk, hv⟩ := h asker ha
  exact ⟨later, hl, hs, hk.trans he.key_eq, (congrArg _ hs).trans he.generation,
    hv _ he.kept⟩

namespace Valid

theorem snapshot_le (valid : shared.Valid) {inquiry : Inquiry} (h : inquiry ∈ shared.inquiries) :
    inquiry.snapshot.generation ≤ shared.resolver.store.generation := by
  rcases (valid.fits inquiry h).current with h | h
  · exact Nat.le_of_lt h
  · exact Nat.le_of_eq (generation_of_snapshot h).symm

/-- A snapshot of the cache's generation is the one in the store. -/
theorem eq_of_generation (valid : shared.Valid) {inquiry : Inquiry}
    (h : inquiry ∈ shared.inquiries)
    (hg : inquiry.snapshot.generation = shared.resolver.cache.generation) :
    shared.resolver.store.snapshot = some inquiry.snapshot := by
  have hle := valid.snapshot_le h
  have hgen := valid.generation
  refine ((valid.fits inquiry h).current).resolve_left fun hlt => ?_
  omega

/-- What is computed from a snapshot and kept is the evaluation of the flag. -/
theorem evaluate_eq (valid : shared.Valid) {asker : Inquiry} (h : asker ∈ shared.inquiries)
    {key : CacheKey} {entry : CachedResolution} (he : asker.Explains key entry) :
    asker.evaluate shared.resolver.evaluator = .ok (.value entry.evaluated) := by
  obtain ⟨concluded, hc, hkept⟩ := Option.bind_eq_some_iff.1 he.kept
  obtain ⟨outcome, ho, rfl⟩ := Option.map_eq_some_iff.1 hc
  rw [← (valid.fits asker h).outcome outcome ho]
  exact Evaluation.eq_value_of_conclude hkept

/-- Between any two atomic operations, an entry for the snapshot in the store was computed from it by
one of the resolutions. -/
theorem traced (valid : shared.Valid) : shared.resolver.Traced := by
  intro snapshot key entry current held _
  obtain ⟨hgen, asker, hasker, explains⟩ := valid.entry key entry held
  have own := valid.eq_of_generation hasker (explains.generation.trans hgen)
  cases current.symm.trans own
  cases explains.key_eq
  exact ⟨asker.context, rfl, valid.evaluate_eq hasker explains⟩

end Valid

theorem valid_start (capacity : Nat) (route : CacheKey → Nat) (evaluator : TargetingEvaluator) :
    (start capacity route evaluator).Valid where
  generation := rfl
  entry _ _ h := absurd h (ResolutionCache.not_holds_routed _ _)
  fits _ h := nomatch h

/-- What the resolutions find out keeps the invariant, if it is right and the cache takes in nothing
that it does not explain. -/
theorem Valid.continue (valid : shared.Valid) {cache : ResolutionCache} {inquiries : List Inquiry}
    (continues : Continues shared.inquiries inquiries)
    (generation : cache.generation = shared.resolver.cache.generation)
    (entry : ∀ key entry, cache.Holds key entry → shared.resolver.cache.Holds key entry ∨
      entry.generation = cache.generation ∧ ∃ asker ∈ inquiries, asker.Explains key entry)
    (fits : ∀ inquiry ∈ inquiries, inquiry ∈ shared.inquiries ∨ shared.Fits inquiry) :
    Valid { shared with
      resolver.cache := cache
      inquiries } where
  generation := generation.trans valid.generation
  entry key e held := by
    rcases entry key e held with held | explained
    · obtain ⟨hg, asker, ha, he⟩ := valid.entry key e held
      obtain ⟨later, hl, -, he⟩ := continues.explains ha he
      exact ⟨hg.trans generation.symm, later, hl, he⟩
    · exact explained
  fits inquiry hi := by
    have hfits : shared.Fits inquiry := (fits inquiry hi).elim (valid.fits inquiry) id
    refine ⟨hfits.current, hfits.outcome, fun e found => ?_⟩
    obtain ⟨asker, ha, hs, he⟩ := hfits.hit e found
    obtain ⟨later, hl, hls, he⟩ := continues.explains ha he
    exact ⟨later, hl, hls.trans hs, he⟩

/-- A lookup that succeeds serves what was computed from the snapshot of the resolution. -/
theorem Valid.explained_of_get (valid : shared.Valid) {inquiry : Inquiry}
    (hi : inquiry ∈ shared.inquiries) {entry : CachedResolution}
    (h : (shared.resolver.cache.get inquiry.key inquiry.snapshot.generation).1 = some entry) :
    ∃ asker ∈ shared.inquiries, asker.snapshot = inquiry.snapshot ∧
      asker.Explains inquiry.key entry := by
  obtain ⟨held, hg, hcache⟩ := ResolutionCache.holds_of_get h
  obtain ⟨-, asker, ha, he⟩ := valid.entry _ _ held
  have hasker := valid.eq_of_generation ha (he.generation.trans (hg.trans hcache))
  have hown := valid.eq_of_generation hi hcache
  exact ⟨asker, ha, Option.some.inj (hasker.symm.trans hown), he⟩

theorem Valid.progress (valid : shared.Valid) {next : SharedResolver}
    (progress : shared.Progress next) : next.Valid := by
  cases progress with
  | idle => exact valid
  | @taken inquiry takes fresh =>
    refine valid.continue (continues_append _ _) rfl (fun _ _ held => .inl held) fun asker h => ?_
    rcases List.mem_append.1 h with h | h
    · exact .inl h
    · cases List.mem_singleton.1 h
      refine .inr ⟨.inr takes, fun _ h => ?_, fun _ h => ?_⟩
      · cases fresh.2.symm.trans h
      · cases fresh.1.symm.trans h
  | @looked index inquiry present fresh =>
    have hi := List.mem_of_getElem? present
    refine valid.continue (continues_set present rfl rfl fun _ h => h)
      (ResolutionCache.get_generation ..)
      (fun _ _ held => .inl (ResolutionCache.holds_get held)) fun asker h => ?_
    rcases List.mem_or_eq_of_mem_set h with h | rfl
    · exact .inl h
    · exact .inr ⟨(valid.fits inquiry hi).current, (valid.fits inquiry hi).outcome,
        fun _ found => valid.explained_of_get hi (Option.some.inj found)⟩
  | @evaluated index inquiry present fresh =>
    have hi := List.mem_of_getElem? present
    refine valid.continue (continues_set present rfl rfl fun evaluated h => ?_) rfl
      (fun _ _ held => .inl held) fun asker h => ?_
    · simp [Inquiry.kept?, Inquiry.concluded?, fresh] at h
    · rcases List.mem_or_eq_of_mem_set h with h | rfl
      · exact .inl h
      · refine .inr ⟨(valid.fits inquiry hi).current, fun outcome h => ?_, fun e found => ?_⟩
        · exact (Option.some.inj h).symm
        · exact (valid.fits inquiry hi).hit e found
  | @stored inquiry evaluated present kept =>
    refine valid.continue (Continues.refl _) (ResolutionCache.put_generation ..)
      (fun key entry held => ?_) fun asker h => .inl h
    rcases ResolutionCache.holds_put held with held | ⟨rfl, rfl, hg⟩
    · exact .inl held
    · exact .inr ⟨hg.trans (ResolutionCache.put_generation ..).symm, inquiry, present,
        rfl, rfl, kept⟩
  | invalidated quiet =>
    refine ⟨rfl, fun _ _ held => absurd held (ResolutionCache.not_holds_invalidate _),
      fun inquiry hi => ?_⟩
    exact ⟨(valid.fits inquiry hi).current, (valid.fits inquiry hi).outcome,
      (valid.fits inquiry hi).hit⟩
  | replaced due =>
    have hgen := valid.generation
    simp only [due, Option.isSome_some, if_true] at hgen
    refine ⟨hgen, valid.entry, fun inquiry hi => ⟨.inl ?_, (valid.fits inquiry hi).outcome,
      (valid.fits inquiry hi).hit⟩⟩
    exact Nat.lt_succ_of_le (valid.snapshot_le hi)

theorem Valid.run (valid : shared.Valid) (moves : List Move) : (shared.run moves).Valid := by
  induction moves generalizing shared with
  | nil => exact valid
  | cons move moves ih => exact ih (valid.progress (shared.progress_step move))

/-- The generation of the cache never goes back. -/
theorem Valid.generation_le (valid : shared.Valid) {next : SharedResolver}
    (progress : shared.Progress next) :
    shared.resolver.cache.generation ≤ next.resolver.cache.generation := by
  cases progress with
  | looked present fresh => exact Nat.le_of_eq (ResolutionCache.get_generation ..).symm
  | stored present kept => exact Nat.le_of_eq (ResolutionCache.put_generation ..).symm
  | invalidated quiet =>
    have hgen := valid.generation
    simp only [quiet, Option.isSome_none, Bool.false_eq_true, if_false, Nat.add_zero] at hgen
    exact hgen ▸ Nat.le_succ _
  | _ => exact Nat.le_refl _

theorem Valid.generation_le_run (valid : shared.Valid) (moves : List Move) :
    shared.resolver.cache.generation ≤ (shared.run moves).resolver.cache.generation := by
  induction moves generalizing shared with
  | nil => exact Nat.le_refl _
  | cons move moves ih =>
    have progress := shared.progress_step move
    exact Nat.le_trans (valid.generation_le progress) (ih (valid.progress progress))

theorem Progress.evaluator {next : SharedResolver} (progress : shared.Progress next) :
    next.resolver.evaluator = shared.resolver.evaluator := by
  cases progress <;> rfl

theorem run_evaluator (shared : SharedResolver) (moves : List Move) :
    (shared.run moves).resolver.evaluator = shared.resolver.evaluator := by
  induction moves generalizing shared with
  | nil => rfl
  | cons move moves ih => exact (ih _).trans (shared.progress_step move).evaluator

/-- With contexts that the fingerprint tells apart, what the cache served is the evaluation of the
resolution's own flag. -/
theorem Valid.evaluate_of_found (valid : shared.Valid)
    (free : EvaluationContext.CollisionFree (shared.inquiries.map (·.context)))
    {inquiry : Inquiry} (hi : inquiry ∈ shared.inquiries) {entry : CachedResolution}
    (found : inquiry.found = some (some entry)) :
    inquiry.evaluate shared.resolver.evaluator = .ok (.value entry.evaluated) := by
  obtain ⟨asker, ha, hs, he⟩ := (valid.fits inquiry hi).hit entry found
  have hkey := CacheKey.mk.inj he.key_eq
  have hcontext := free _ (List.mem_map_of_mem ha) _ (List.mem_map_of_mem hi) hkey.2.2
  have heval := valid.evaluate_eq ha he
  unfold Inquiry.evaluate at heval ⊢
  rwa [hs, hkey.1, hkey.2.1, hcontext] at heval

/-- However resolutions and updates interleave, a lookup that succeeds gives what evaluating the
flag against the resolution's own snapshot gives, in a context with the same fingerprint and hence
in its own context unless two contexts share a fingerprint. And once the cache is invalidated for
an update, all that it ever holds again was computed from a snapshot that came later. -/
theorem hits_and_entries (capacity : Nat) (route : CacheKey → Nat) (evaluator : TargetingEvaluator)
    (moves later : List Move) :
    let shared := (start capacity route evaluator).run moves
    (∀ inquiry ∈ shared.inquiries, ∀ entry, inquiry.found = some (some entry) →
      (∃ asker ∈ shared.inquiries, asker.key = inquiry.key ∧ asker.snapshot = inquiry.snapshot ∧
        asker.evaluate evaluator = .ok (.value entry.evaluated)) ∧
      (EvaluationContext.CollisionFree (shared.inquiries.map (·.context)) →
        inquiry.evaluate evaluator = .ok (.value entry.evaluated))) ∧
    (shared.swapping.isSome → ∀ key entry, (shared.run later).resolver.cache.Holds key entry →
      (∀ inquiry ∈ shared.inquiries, inquiry.snapshot.generation < entry.generation) ∧
      shared.resolver.store.generation < entry.generation ∧
      ∃ asker ∈ (shared.run later).inquiries, asker.Explains key entry) := by
  intro shared
  have valid : shared.Valid := (valid_start capacity route evaluator).run moves
  have hev : shared.resolver.evaluator = evaluator := run_evaluator _ moves
  constructor
  · intro inquiry hi entry found
    obtain ⟨asker, ha, hs, he⟩ := (valid.fits inquiry hi).hit entry found
    refine ⟨⟨asker, ha, he.key_eq, hs, ?_⟩, fun free => ?_⟩
    · exact hev ▸ valid.evaluate_eq ha he
    · exact hev ▸ valid.evaluate_of_found free hi found
  · intro swapping key entry held
    have hgen := valid.generation
    rw [if_pos swapping] at hgen
    have hle := valid.generation_le_run later
    obtain ⟨hentry, explained⟩ := (valid.run later).entry key entry held
    refine ⟨fun inquiry hi => ?_, ?_, explained⟩
    · have := valid.snapshot_le hi
      omega
    · omega

/-- A resolution is served what another one has computed. Then an update comes between, the other
one puts its result once more, which is too late, and a third one puts what it computes from the new
snapshot. -/
theorem hits_and_entries_late_put :
    let document := "\x7b\"flags\":\x7b\"f\":\x7b\"state\":\"ENABLED\"," ++
      "\"variants\":\x7b\"on\":true\x7d,\"defaultVariant\":\"on\"\x7d\x7d\x7d"
    let payload : SyncPayload := { content := .full document }
    let moves : List Move := [.invalidate payload, .replace, .take "f" .boolean false {}, .lookup 0,
      .evaluate 0, .put 0, .take "f" .boolean false {}, .lookup 1, .invalidate payload]
    let later : List Move := [.put 0, .replace, .take "f" .boolean false {}, .lookup 2, .evaluate 2,
      .put 2]
    let shared := (start 1 (fun _ => 0) TargetingRules.evaluator).run moves
    (∃ inquiry ∈ shared.inquiries, ∃ entry, inquiry.found = some (some entry) ∧
      inquiry.evaluate TargetingRules.evaluator = .ok (.value entry.evaluated)) ∧
    ∃ key entry, (shared.run later).resolver.cache.Holds key entry ∧
      shared.resolver.store.generation < entry.generation := by
  intro document payload moves later shared
  have main := hits_and_entries 1 (fun _ => 0) TargetingRules.evaluator moves later
  obtain ⟨plain, hit, swapping, held⟩ : (∀ inquiry ∈ shared.inquiries,
        inquiry.context.targetingKey = none ∧ inquiry.context.attributes.entries = []) ∧
      (shared.inquiries[1]?.bind fun inquiry => inquiry.found.join).isSome = true ∧
      shared.swapping.isSome = true ∧
      ((shared.run later).resolver.cache.shards.any fun shard =>
        !shard.entries.isEmpty) = true := by
    decide +kernel
  -- From here on it does not matter what the run was.
  rw [show (start 1 (fun _ => 0) TargetingRules.evaluator).run moves = shared from rfl] at main
  clear_value shared
  obtain ⟨hits, entries⟩ := main
  constructor
  · have hcontext : ∀ context ∈ shared.inquiries.map (·.context), context = {} := by
      intro context h
      obtain ⟨inquiry, hi, rfl⟩ := List.mem_map.1 h
      obtain ⟨hkey, hattributes⟩ := plain inquiry hi
      generalize inquiry.context = context at hkey hattributes
      obtain ⟨key, ⟨attributes, sorted⟩⟩ := context
      cases hkey
      cases hattributes
      rfl
    have free : EvaluationContext.CollisionFree (shared.inquiries.map (·.context)) := by
      intro a ha b hb _
      rw [hcontext a ha, hcontext b hb]
    obtain ⟨entry, hentry⟩ := Option.isSome_iff_exists.1 hit
    obtain ⟨inquiry, present, found⟩ := Option.bind_eq_some_iff.1 hentry
    have hi := List.mem_of_getElem? present
    have hfound := Option.join_eq_some_iff.1 found
    exact ⟨inquiry, hi, entry, hfound, (hits inquiry hi entry hfound).2 free⟩
  · obtain ⟨shard, hshard, hentries⟩ := List.any_eq_true.1 held
    have hne : shard.entries ≠ [] := by simpa using hentries
    obtain ⟨⟨key, entry⟩, hentry⟩ := List.exists_mem_of_ne_nil shard.entries hne
    have holds : (shared.run later).resolver.cache.Holds key entry := ⟨shard, hshard, hentry⟩
    exact ⟨key, entry, holds, (entries swapping key entry holds).2.1⟩

/-! ## One at a time -/

section

variable {resolver : Resolver} {inquiry : Inquiry}

/-- A resolver with one resolution that is going on. -/
def alone (resolver : Resolver) (inquiry : Inquiry) : SharedResolver :=
  { resolver, inquiries := [inquiry] }

theorem step_take {snapshot : Snapshot} (hs : resolver.store.snapshot = some snapshot)
    (flagKey : String) (kind : ValueKind) (fallback : kind.Carrier) (context : EvaluationContext) :
    step { resolver } (.take flagKey kind fallback context) =
      alone resolver { flagKey, kind, fallback, context, snapshot } := by
  simp only [step, hs]
  rfl

theorem step_lookup (fresh : inquiry.found = none) :
    step (alone resolver inquiry) (.lookup 0) =
      alone
        { resolver with
          cache := (resolver.cache.get inquiry.key inquiry.snapshot.generation).2 }
        { inquiry with
          found := some (resolver.cache.get inquiry.key inquiry.snapshot.generation).1 } :=
  advance_of_some rfl (if_neg (by simp [fresh]))

theorem step_evaluate_of_served (h : inquiry.isUnserved = false) :
    step (alone resolver inquiry) (.evaluate 0) = alone resolver inquiry :=
  advance_of_none (if_neg (by simp [h]))

theorem step_evaluate_of_unserved (h : inquiry.isUnserved = true) :
    step (alone resolver inquiry) (.evaluate 0) =
      alone resolver { inquiry with outcome := some (inquiry.evaluate resolver.evaluator) } :=
  advance_of_some rfl (if_pos h)

theorem step_put (resolver : Resolver) (inquiry : Inquiry) :
    step (alone resolver inquiry) (.put 0) =
      alone
        { resolver with
          cache := inquiry.kept?.elim resolver.cache fun evaluated =>
            resolver.cache.put inquiry.key ⟨inquiry.snapshot.generation, evaluated⟩ }
        inquiry := by
  cases hkept : inquiry.kept? with
  | none => exact advance_of_none (Option.map_eq_none_iff.2 hkept)
  | some evaluated => exact advance_of_some rfl (Option.map_eq_some_iff.2 ⟨evaluated, hkept, rfl⟩)

/-- With nobody else at work, the operations of a resolution give what `Resolver.resolve` gives. -/
theorem run_resolution {snapshot : Snapshot} (hs : resolver.store.snapshot = some snapshot)
    (he : resolver.cache.isEnabled = true) (flagKey : String) (kind : ValueKind)
    (fallback : kind.Carrier) (context : EvaluationContext) :
    ∃ found outcome,
      let done : Inquiry := ⟨flagKey, kind, fallback, context, snapshot, found, outcome⟩
      run { resolver } [.take flagKey kind fallback context, .lookup 0, .evaluate 0, .put 0] =
          alone (resolver.resolve flagKey kind fallback context).2 done ∧
        done.details? = some (resolver.resolve flagKey kind fallback context).1 := by
  let key : CacheKey := ⟨flagKey, kind, context.fingerprint⟩
  let used := resolver.cache.get key snapshot.generation
  let looked : Inquiry := { flagKey, kind, fallback, context, snapshot, found := some used.1 }
  have hserved : looked.served? = (resolver.lookup key snapshot.generation).1 := rfl
  have hlook : run { resolver } [.take flagKey kind fallback context, .lookup 0, .evaluate 0,
      .put 0] = ((alone { resolver with cache := used.2 } looked).step (.evaluate 0)).step
        (.put 0) := by
    simp only [run, List.foldl_cons, List.foldl_nil, step_take hs]
    rw [step_lookup rfl]
    rfl
  cases hl : (resolver.lookup key snapshot.generation).1 with
  | some details =>
    have hunserved : looked.isUnserved = false := by
      simp only [Inquiry.isUnserved, hserved, hl, Option.isNone_some, Bool.and_false,
        Bool.false_and]
    refine ⟨looked.found, none, ?_, ?_⟩
    · rw [hlook, step_evaluate_of_served hunserved, step_put, Resolver.resolve_of_hit hs he hl]
      rfl
    · have hdetails : looked.details? = some details := by
        rw [Inquiry.details?, hserved, hl]
        rfl
      rw [Resolver.resolve_of_hit hs he hl]
      exact hdetails
  | none =>
    have hunserved : looked.isUnserved = true := by
      simp only [Inquiry.isUnserved, hserved, hl]
      rfl
    let done : Inquiry := { looked with outcome := some (looked.evaluate resolver.evaluator) }
    refine ⟨done.found, done.outcome, ?_, ?_⟩
    · rw [hlook, step_evaluate_of_unserved hunserved, step_put, Resolver.resolve_of_miss hs he hl]
      rfl
    · have hnone : done.served? = none := hserved.trans hl
      have hdetails : done.details? =
          some (resolver.compute snapshot flagKey kind fallback context).1 := by
        rw [Inquiry.details?, hnone]
        rfl
      rw [Resolver.resolve_of_miss hs he hl]
      exact hdetails

/-- With nobody else at work, the operations of an update make of a resolver what
`Resolver.applyPayload` makes of it. -/
theorem run_update (payload : SyncPayload) :
    (run { resolver } [.invalidate payload, .replace]).resolver =
      (resolver.applyPayload payload).2 := by
  simp only [run, List.foldl_cons, List.foldl_nil, step, Resolver.applyPayload]
  cases payload.content.apply resolver.store.set? <;> rfl

end

end SharedResolver

end FeatureFlags
