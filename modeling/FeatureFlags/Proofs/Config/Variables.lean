import FeatureFlags.Proofs.Config.Precedence

/-!
# Settings from variables

Each setting has a variable (`Setting.variableName`), and some texts spell a value of it
(`Setting.Spells`): numerals below a bound, names in any case of their letters, or any text at all.
A variable is bad if it is set to a text that is not empty and spells nothing (`IsBad`).

* `Environment.Honest`: what a reader of one variable has to do, which is to give the value that the
  text spells and to refuse a text that spells none. All readers do (`honest_given`), except the one
  of the variable that switches encryption (`flag_eq_some`).
* `Environment.layer_eq_error_iff`: an environment is refused for the first bad variable in the
  order of the checks (`Setting.checked`).
* `Environment.given_of_layer`: otherwise every setting is what its variable gives.
-/

namespace FeatureFlags

open Outcome

/-! ## Spellings -/

/-- Decimal digits, which a plus sign may precede, spell a number. -/
def IsNumeral (text : String) (n : Nat) : Prop :=
  ∃ digits : List Char, (text.toList = digits ∨ text.toList = '+' :: digits) ∧ digits ≠ [] ∧
    (∀ c ∈ digits, c.isDigit = true) ∧ Text.decimalValue digits = n

/-- The names of a kind of cache, in lower case. -/
def CacheType.names : CacheType → List String
  | lru => ["lru"]
  | disabled => ["disabled", "none"]

/-- The names of a place of evaluation, in lower case. -/
def ResolverType.names : ResolverType → List String
  | inProcess => ["in-process", "in_process", "inprocess"]
  | rpc => ["rpc"]

/-- The names of a way to ask for updates, in lower case. -/
def SyncMode.names : SyncMode → List String
  | stream => ["stream"]
  | poll => ["poll"]

namespace Setting

/-- The variable of a setting. -/
def variableName : Setting → String
  | host => "FLAGD_HOST"
  | port => "FLAGD_PORT"
  | tls => "FLAGD_TLS"
  | certPath => "FLAGD_SERVER_CERT_PATH"
  | socketPath => "FLAGD_SOCKET_PATH"
  | cache => "FLAGD_CACHE"
  | maxCacheSize => "FLAGD_MAX_CACHE_SIZE"
  | resolver => "FLAGD_RESOLVER"
  | selector => "FLAGD_SOURCE_SELECTOR"
  | maxEventStreamRetries => "FLAGD_MAX_EVENT_STREAM_RETRIES"
  | retryBackoff => "FLAGD_RETRY_BACKOFF_MS"
  | retryBackoffMax => "FLAGD_RETRY_BACKOFF_MAX_MS"
  | deadline => "FLAGD_DEADLINE_MS"
  | streamDeadline => "FLAGD_STREAM_DEADLINE_MS"
  | offlineFlagSourcePath => "FLAGD_OFFLINE_FLAG_SOURCE_PATH"
  | offlinePollInterval => "FLAGD_OFFLINE_POLL_MS"
  | syncMode => "FLAGD_SYNC_MODE"
  | pollInterval => "FLAGD_POLL_INTERVAL_MS"
  | syncToken => "FLAGD_SYNC_TOKEN"

/-- Whether a text spells a value of a setting. -/
def Spells : (s : Setting) → String → s.Given → Prop
  | host | certPath | socketPath | selector | offlineFlagSourcePath | syncToken =>
    fun text (value : String) => value = text
  | port => fun text (value : UInt16) => IsNumeral text value.toNat
  | tls => fun text (value : Bool) =>
    text.map Char.toLower = (if value then "true" else "false") ∨
      text = (if value then "1" else "0")
  | cache => fun text (value : CacheType) => text.map Char.toLower ∈ value.names
  | maxEventStreamRetries => fun text (value : UInt32) => IsNumeral text value.toNat
  | resolver => fun text (value : ResolverType) => text.map Char.toLower ∈ value.names
  | maxCacheSize | retryBackoff | retryBackoffMax | deadline | streamDeadline
  | offlinePollInterval | pollInterval => fun text (value : UInt64) => IsNumeral text value.toNat
  | syncMode => fun text (value : SyncMode) => text.map Char.toLower ∈ value.names

/-- The settings whose variables are checked, in the order of the checks, with what a message calls
their values. -/
def checked : List (Setting × String) :=
  [(port, "u16"), (cache, "cache type"), (maxCacheSize, "usize"), (resolver, "resolver type"),
    (maxEventStreamRetries, "u32"), (retryBackoff, "u64"), (retryBackoffMax, "u64"),
    (deadline, "u64"), (streamDeadline, "u64"), (offlinePollInterval, "u64"),
    (syncMode, "sync mode"), (pollInterval, "u64")]

end Setting

namespace Environment

/-- A variable is set to a text that is not empty and spells no value of its setting. -/
structure IsBad (env : Environment) (s : Setting) (text : String) : Prop where
  set : env s.variableName = some text
  ne_empty : text ≠ ""
  misspelt : ∀ value, ¬ s.Spells text value

variable {env : Environment} {name what text : String}

theorem text_eq_some : env.text name = some text ↔ env name = some text ∧ text ≠ "" := by
  rw [Environment.text, Option.filter_eq_some_iff]
  simp

/-! ## One variable -/

/-- What becomes of a variable: its text is refused if it spells nothing, and else it is the value
that it spells. -/
structure Honest {α : Type} (env : Environment) (name what : String) (Spells : String → α → Prop)
    (outcome : Except ConfigError (Option α)) : Prop where
  refused (error : ConfigError) : outcome = .error error ↔
    ∃ text, env.text name = some text ∧ (∀ value, ¬ Spells text value) ∧
      error = .invalidValue name ("invalid " ++ what ++ " value '" ++ text ++ "'")
  given (given : Option α) : outcome = .ok given → ∀ value, given = some value ↔
    ∃ text, env.text name = some text ∧ Spells text value

section Readers

variable {α : Type} {read? : String → Option α} {Spells : String → α → Prop}

theorem honest_parsed (reads : ∀ text value, read? text = some value ↔ Spells text value) :
    Honest env name what Spells (env.parsed name what read?) := by
  unfold parsed
  cases hset : env.text name with
  | none => exact ⟨fun error => by simp [hset], fun given hgiven => by cases hgiven; simp [hset]⟩
  | some text =>
    dsimp only
    cases hread : read? text with
    | none =>
      have misspelt : ∀ value, ¬ Spells text value := fun value spells =>
        by cases hread.symm.trans ((reads text value).2 spells)
      refine ⟨fun error => ?_, fun given hgiven => by cases hgiven⟩
      simp [misspelt, eq_comm, hset]
    | some value =>
      have spells := (reads text value).1 hread
      refine ⟨fun error => ?_, fun given hgiven other => ?_⟩
      · simp only [reduceCtorEq, false_iff]
        rintro ⟨_, hother, misspelt, -⟩
        cases hset.symm.trans hother
        exact misspelt value spells
      · cases hgiven
        simp [hset, ← reads, hread]

end Readers

theorem natural?_eq_some {bound : Nat} {i : Fin bound} :
    natural? bound text = some i ↔ IsNumeral text i := by
  have spelt (digits : List Char) :
      (if !digits.isEmpty && digits.all Char.isDigit then
        Text.below? bound (Text.decimalValue digits) else none) = some i ↔
      digits ≠ [] ∧ (∀ c ∈ digits, c.isDigit = true) ∧ Text.decimalValue digits = i := by
    have below : Text.below? bound (Text.decimalValue digits) = some i ↔
        Text.decimalValue digits = i := by
      unfold Text.below?
      constructor
      · intro h
        split at h
        · cases h
          rfl
        · cases h
      · intro h
        rw [dif_pos ⟨Int.natCast_nonneg _, by simp [h]⟩]
        exact congrArg some (Fin.ext h)
    rw [← below]
    simp [and_assoc]
  unfold natural? IsNumeral
  generalize text.toList = cs
  dsimp only
  rw [spelt]
  split
  · rename_i rest
    constructor
    · exact fun h => ⟨rest, .inr rfl, h⟩
    · rintro ⟨digits, rfl | same, h⟩
      · exact absurd (h.2.1 '+' List.mem_cons_self) (by decide)
      · cases same
        exact h
  · rename_i unsigned
    constructor
    · exact fun h => ⟨cs, .inl rfl, h⟩
    · rintro ⟨digits, rfl | same, h⟩
      · exact h
      · exact absurd same (unsigned digits)

theorem map_natural?_eq_some {α : Type} {bound : Nat} {f : Fin bound → α} {g : α → Fin bound}
    (hfg : ∀ i, g (f i) = i) (hgf : ∀ value, f (g value) = value) (text : String) (value : α) :
    (natural? bound text).map f = some value ↔ IsNumeral text (g value) := by
  rw [← natural?_eq_some, Option.map_eq_some_iff]
  constructor
  · rintro ⟨i, hi, rfl⟩
    rw [hi, hfg]
  · exact fun h => ⟨g value, h, hgf value⟩

theorem honest_uint16 : Honest env name "u16" (fun text (value : UInt16) =>
    IsNumeral text value.toNat) (env.uint16 name) :=
  honest_parsed (map_natural?_eq_some (g := UInt16.toFin) (fun _ => rfl) fun _ => rfl)

theorem honest_uint32 : Honest env name "u32" (fun text (value : UInt32) =>
    IsNumeral text value.toNat) (env.uint32 name) :=
  honest_parsed (map_natural?_eq_some (g := UInt32.toFin) (fun _ => rfl) fun _ => rfl)

theorem honest_uint64 : Honest env name what (fun text (value : UInt64) =>
    IsNumeral text value.toNat) (uint64As what env name) :=
  honest_parsed (map_natural?_eq_some (g := UInt64.toFin) (fun _ => rfl) fun _ => rfl)

theorem toOption_parse {α : Type} [Spelled α] (text : String) :
    (Spelled.parse text : Except String α).toOption =
      Spelled.spellings.lookup (text.map Char.toLower) := by
  unfold Spelled.parse
  dsimp only
  cases (Spelled.spellings (α := α)).lookup (text.map Char.toLower) <;> rfl

theorem honest_spelled {α : Type} [Spelled α] (names : α → List String)
    (agree : ∀ lower value, Spelled.spellings.lookup lower = some value ↔ lower ∈ names value) :
    Honest env name (Spelled.what α) (fun text value => text.map Char.toLower ∈ names value)
      (env.spelled name) := by
  refine honest_parsed fun text value => ?_
  rw [toOption_parse, agree]

theorem lookup_cache (lower : String) (value : CacheType) :
    Spelled.spellings.lookup lower = some value ↔ lower ∈ value.names := by
  cases value <;> simp [Spelled.spellings, CacheType.names, List.lookup_cons] <;> grind

theorem lookup_resolver (lower : String) (value : ResolverType) :
    Spelled.spellings.lookup lower = some value ↔ lower ∈ value.names := by
  cases value <;> simp [Spelled.spellings, ResolverType.names, List.lookup_cons] <;> grind

theorem lookup_syncMode (lower : String) (value : SyncMode) :
    Spelled.spellings.lookup lower = some value ↔ lower ∈ value.names := by
  cases value <;> simp [Spelled.spellings, SyncMode.names, List.lookup_cons] <;> grind

/-- What an environment gives for a setting, if anything. -/
def given (env : Environment) : (s : Setting) → Except ConfigError (Option s.Given)
  | .host => .ok (env.text "FLAGD_HOST")
  | .port => env.uint16 "FLAGD_PORT"
  | .tls => .ok (env.flag "FLAGD_TLS")
  | .certPath => .ok (env.text "FLAGD_SERVER_CERT_PATH")
  | .socketPath => .ok (env.text "FLAGD_SOCKET_PATH")
  | .cache => (env.spelled "FLAGD_CACHE" : Except ConfigError (Option CacheType))
  | .maxCacheSize => uint64As "usize" env "FLAGD_MAX_CACHE_SIZE"
  | .resolver => (env.spelled "FLAGD_RESOLVER" : Except ConfigError (Option ResolverType))
  | .selector => .ok (env.text "FLAGD_SOURCE_SELECTOR")
  | .maxEventStreamRetries => env.uint32 "FLAGD_MAX_EVENT_STREAM_RETRIES"
  | .retryBackoff => env.uint64 "FLAGD_RETRY_BACKOFF_MS"
  | .retryBackoffMax => env.uint64 "FLAGD_RETRY_BACKOFF_MAX_MS"
  | .deadline => env.uint64 "FLAGD_DEADLINE_MS"
  | .streamDeadline => env.uint64 "FLAGD_STREAM_DEADLINE_MS"
  | .offlineFlagSourcePath => .ok (env.text "FLAGD_OFFLINE_FLAG_SOURCE_PATH")
  | .offlinePollInterval => env.uint64 "FLAGD_OFFLINE_POLL_MS"
  | .syncMode => (env.spelled "FLAGD_SYNC_MODE" : Except ConfigError (Option SyncMode))
  | .pollInterval => env.uint64 "FLAGD_POLL_INTERVAL_MS"
  | .syncToken => .ok (env.text "FLAGD_SYNC_TOKEN")

/-- All variables that are checked are read so. -/
theorem honest_checked (env : Environment) :
    ∀ c ∈ Setting.checked, Honest env c.1.variableName c.2 c.1.Spells (env.given c.1) := by
  simp only [Setting.checked, List.forall_mem_cons]
  exact ⟨honest_uint16, honest_spelled _ lookup_cache, honest_uint64,
    honest_spelled _ lookup_resolver, honest_uint32, honest_uint64, honest_uint64, honest_uint64,
    honest_uint64, honest_uint64, honest_spelled _ lookup_syncMode, honest_uint64, by simp⟩

/-- A text is taken as it is. -/
theorem honest_text : Honest env name what (fun text value => value = text)
    (.ok (env.text name)) where
  refused error := by simp
  given given hgiven value := by
    cases hgiven
    simp

/-- All variables but the one that switches encryption are read so. -/
theorem honest_given {s : Setting} (hs : s ≠ .tls) :
    ∃ what, Honest env s.variableName what s.Spells (env.given s) := by
  by_cases hc : ∃ what, (s, what) ∈ Setting.checked
  · obtain ⟨what, mem⟩ := hc
    exact ⟨what, honest_checked env _ mem⟩
  · refine ⟨"", ?_⟩
    cases s
    case tls => exact absurd rfl hs
    case host | certPath | socketPath | selector | offlineFlagSourcePath | syncToken =>
      exact honest_text
    all_goals simp [Setting.checked] at hc

theorem flag_eq_some {on : Bool} : env.flag name = some on ↔
    ∃ text, env.text name = some text ∧ (on = true ↔ Setting.tls.Spells text true) := by
  rw [flag, Option.map_eq_some_iff]
  refine exists_congr fun text => and_congr_right fun _ => ?_
  rw [Bool.eq_iff_iff]
  simp [Setting.Spells, iff_comm]

/-! ## All variables -/

theorem given_of_layer {layer : ConfigLayer} (h : env.layer = .ok layer) (s : Setting) :
    env.given s = .ok (layer.get s) := by
  simp only [Environment.layer, bind_eq_ok] at h
  obtain ⟨port, hport, cache, hcache, maxCacheSize, hmaxCacheSize, resolver, hresolver, retries,
    hretries, backoff, hbackoff, backoffMax, hbackoffMax, deadline, hdeadline, streamDeadline,
    hstreamDeadline, offlinePoll, hofflinePoll, syncMode, hsyncMode, poll, hpoll, h⟩ := h
  cases h
  cases s
  case host | tls | certPath | socketPath | selector | offlineFlagSourcePath | syncToken => rfl
  all_goals assumption

theorem layer_eq_error {error : ConfigError} : env.layer = .error error ↔
    (Setting.checked.mapM fun c => (env.given c.1).map fun _ => ()) = .error error := by
  simp only [Setting.checked, List.mapM_cons, List.mapM_nil, bind_eq_error, map_eq_error,
    map_eq_ok, and_true]
  simp only [Environment.layer, bind_eq_error]
  simp [pure, Except.pure]
  rfl

theorem isBad_iff {s : Setting} : env.IsBad s text ↔
    env.text s.variableName = some text ∧ ∀ value, ¬ s.Spells text value := by
  rw [text_eq_some]
  exact ⟨fun ⟨set, written, misspelt⟩ => ⟨⟨set, written⟩, misspelt⟩,
    fun ⟨⟨set, written⟩, misspelt⟩ => ⟨set, written, misspelt⟩⟩

theorem Honest.refused_iff {s : Setting} {outcome : Except ConfigError (Option s.Given)}
    (honest : Honest env s.variableName what s.Spells outcome) (error : ConfigError) :
    outcome = .error error ↔ ∃ text, env.IsBad s text ∧
      error = .invalidValue s.variableName ("invalid " ++ what ++ " value '" ++ text ++ "'") := by
  simp only [honest.refused, isBad_iff, and_assoc]

theorem Honest.exists_ok_iff {s : Setting} {outcome : Except ConfigError (Option s.Given)}
    (honest : Honest env s.variableName what s.Spells outcome) :
    (∃ given, outcome = .ok given) ↔ ∀ text, ¬ env.IsBad s text := by
  rw [Outcome.exists_ok_iff]
  constructor
  · exact fun never text bad => never _ ((honest.refused_iff _).2 ⟨text, bad, rfl⟩)
  · intro fine error refused
    obtain ⟨text, bad, -⟩ := (honest.refused_iff _).1 refused
    exact fine text bad

/-- The first bad variable in the order of the checks is reported. -/
theorem layer_eq_error_iff {error : ConfigError} : env.layer = .error error ↔
    ∃ before s what after text, Setting.checked = before ++ (s, what) :: after ∧
      env.IsBad s text ∧ (∀ c ∈ before, ∀ text, ¬ env.IsBad c.1 text) ∧
      error = .invalidValue s.variableName ("invalid " ++ what ++ " value '" ++ text ++ "'") := by
  have fine {before after : List (Setting × String)} {c : Setting × String}
      (order : Setting.checked = before ++ c :: after) {b : Setting × String} (hb : b ∈ before) :
      (∃ given, (env.given b.1).map (fun _ => ()) = .ok given) ↔
        ∀ text, ¬ env.IsBad b.1 text := by
    rw [← (honest_checked env b (order ▸ List.mem_append_left _ hb)).exists_ok_iff]
    simp [map_eq_ok]
  rw [layer_eq_error, mapM_eq_error]
  constructor
  · rintro ⟨before, ⟨s, what⟩, after, order, passed, refused⟩
    have honest := honest_checked env (s, what) (order ▸ by simp)
    obtain ⟨text, bad, rfl⟩ := (honest.refused_iff error).1 (map_eq_error.1 refused)
    exact ⟨before, s, what, after, text, order, bad,
      fun b hb => (fine order hb).1 (passed b hb), rfl⟩
  · rintro ⟨before, s, what, after, text, order, bad, passed, rfl⟩
    have honest := honest_checked env (s, what) (order ▸ by simp)
    exact ⟨before, (s, what), after, order, fun b hb => (fine order hb).2 (passed b hb),
      map_eq_error.2 ((honest.refused_iff _).2 ⟨text, bad, rfl⟩)⟩

theorem exists_error_of_isBad {s : Setting} (hs : s ≠ .tls) (bad : env.IsBad s text) :
    ∃ error, env.layer = .error error := by
  obtain ⟨what, honest⟩ := honest_given hs
  cases h : env.layer with
  | error error => exact ⟨error, rfl⟩
  | ok layer => exact absurd bad (honest.exists_ok_iff.1 ⟨_, given_of_layer h s⟩ text)

/-- An environment is refused exactly if some variable is bad, apart from the one that switches
encryption, and the first bad one is named. It is then refused as one of any sources, so that none
of its texts overrides anything. An environment that is not refused gives for each other setting
what its variable spells. Every text of the variable for encryption is taken: one that spells
nothing switches encryption off. -/
theorem bad_variables_refused_but_tls (env : Environment) :
    (∀ error, env.layer = .error error ↔
      ∃ before s what after text, Setting.checked = before ++ (s, what) :: after ∧
        env.IsBad s text ∧ (∀ c ∈ before, ∀ text, ¬ env.IsBad c.1 text) ∧
        error =
          .invalidValue s.variableName ("invalid " ++ what ++ " value '" ++ text ++ "'")) ∧
    ((∃ error, env.layer = .error error) ↔ ∃ s text, s ≠ .tls ∧ env.IsBad s text) ∧
    (∀ s text, s ≠ .tls → env.IsBad s text → ∀ sources files, .environment env ∈ sources →
      ∃ error, ResolverConfig.ofSources sources files = .error error) ∧
    ∀ layer, env.layer = .ok layer →
      (∀ s ≠ .tls, ∀ value, layer.get s = some value ↔
        ∃ text, env s.variableName = some text ∧ text ≠ "" ∧ s.Spells text value) ∧
      (∀ on, layer.tls = some on ↔ ∃ text, env "FLAGD_TLS" = some text ∧ text ≠ "" ∧
        (on = true ↔ Setting.tls.Spells text true)) ∧
      ∀ text, env.IsBad .tls text → layer.tls = some false := by
  refine ⟨fun error => layer_eq_error_iff, ⟨?_, ?_⟩, ?_, fun layer h => ⟨?_, ?_, ?_⟩⟩
  · rintro ⟨error, refused⟩
    obtain ⟨before, s, what, after, text, order, bad, -⟩ := layer_eq_error_iff.1 refused
    have mem : (s, what) ∈ Setting.checked := order ▸ by simp
    exact ⟨s, text, by rintro rfl; simp [Setting.checked] at mem, bad⟩
  · rintro ⟨s, text, hs, bad⟩
    exact exists_error_of_isBad hs bad
  · intro s text hs bad sources files mem
    obtain ⟨error, refused⟩ := exists_error_of_isBad hs bad
    have fails : (ConfigSource.environment env).load files = .error error := refused
    obtain ⟨_, _, cause, -, -, -, reported⟩ := ResolverConfig.ofSources_eq_of_fail mem fails
    exact ⟨cause, reported⟩
  · intro s hs value
    obtain ⟨what, honest⟩ := honest_given hs
    rw [honest.given _ (given_of_layer h s)]
    simp only [text_eq_some, and_assoc]
  · intro on
    have hget : env.flag "FLAGD_TLS" = layer.tls := Except.ok.inj (given_of_layer h .tls)
    rw [← hget, flag_eq_some]
    simp only [text_eq_some, and_assoc]
  · intro text bad
    have hget : env.flag "FLAGD_TLS" = layer.tls := Except.ok.inj (given_of_layer h .tls)
    rw [← hget]
    exact flag_eq_some.2 ⟨text, text_eq_some.2 ⟨bad.set, bad.ne_empty⟩, by simp [bad.misspelt true]⟩

/-- A file switches encryption on, and the environment off again by a text that spells nothing. -/
theorem tls_yes_overrides_file :
    let env : Environment := fun name => if name = "FLAGD_TLS" then some "yes" else none
    let files : Files := fun path =>
      if path = "flagd.toml" then some (.file (Utf8.encode "tls = true")) else none
    env.IsBad .tls "yes" ∧ env.layer = .ok { tls := some false } ∧
      (ResolverConfig.ofSources [.toml "flagd.toml"] files).map (·.tls) = .ok true ∧
      (ResolverConfig.ofSources [.toml "flagd.toml", .environment env] files).map (·.tls) =
        .ok false := by
  have lower : "yes".map Char.toLower = "yes" :=
    String.ext ((String.toList_map ..).trans (by decide))
  have misspelt : ∀ value, ¬ Setting.tls.Spells "yes" value := by
    rintro (_ | _)
    all_goals
      simp only [Setting.Spells, lower]
      decide
  refine ⟨⟨rfl, by decide, misspelt⟩, by decide +kernel, by decide +kernel, ?_⟩
  -- the file comes first, as its precedence is lower
  dsimp only [ResolverConfig.ofSources, ResolverConfig.merged]
  rw [List.mergeSort_of_pairwise (by simp [ConfigSource.precedence])]
  decide +kernel

end Environment

end FeatureFlags
