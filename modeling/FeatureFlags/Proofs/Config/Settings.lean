import FeatureFlags.Config.Layer

/-!
# The settings of a configuration

A layer sets some of nineteen settings, and a configuration has all of them. A `Setting` names one
of them, so that what holds of each is said once: merging lets the second layer decide
(`ConfigLayer.get_merge`), and a setting that a layer does not set has its default in the
configuration that is made of the layer (`ConfigLayer.get_finish`). There are no other settings
(`ResolverConfig.ext_get`).
-/

namespace FeatureFlags

/-- One of the settings. -/
inductive Setting where
  | host
  | port
  | tls
  | certPath
  | socketPath
  | cache
  | maxCacheSize
  | resolver
  | selector
  | maxEventStreamRetries
  | retryBackoff
  | retryBackoffMax
  | deadline
  | streamDeadline
  | offlineFlagSourcePath
  | offlinePollInterval
  | syncMode
  | pollInterval
  | syncToken
  deriving DecidableEq

namespace Setting

/-- What a source gives for a setting; durations are in milliseconds. -/
def Given : Setting → Type
  | host | certPath | socketPath | selector | offlineFlagSourcePath | syncToken => String
  | port => UInt16
  | tls => Bool
  | cache => CacheType
  | maxCacheSize => UInt64
  | resolver => ResolverType
  | maxEventStreamRetries => UInt32
  | retryBackoff | retryBackoffMax | deadline | streamDeadline | offlinePollInterval
  | pollInterval => UInt64
  | syncMode => SyncMode

/-- What a configuration has for a setting. -/
def Value : Setting → Type
  | host => String
  | certPath | socketPath | selector | offlineFlagSourcePath | syncToken => Option String
  | port => UInt16
  | tls => Bool
  | cache => CacheType
  | maxCacheSize => UInt64
  | resolver => ResolverType
  | maxEventStreamRetries => UInt32
  | retryBackoff | retryBackoffMax | deadline | streamDeadline | offlinePollInterval
  | pollInterval => Duration
  | syncMode => SyncMode

/-- What a configuration has for a setting that is given. -/
def value : (s : Setting) → s.Given → s.Value
  | host | port | tls | cache | maxCacheSize | resolver | maxEventStreamRetries | syncMode => id
  | certPath | socketPath | selector | offlineFlagSourcePath | syncToken => some
  | retryBackoff | retryBackoffMax | deadline | streamDeadline | offlinePollInterval
  | pollInterval => fun ms : UInt64 => Duration.ofMilliseconds ms.toNat

end Setting

/-- What a layer sets for a setting, if anything. -/
def ConfigLayer.get (layer : ConfigLayer) : (s : Setting) → Option s.Given
  | .host => layer.host
  | .port => layer.port
  | .tls => layer.tls
  | .certPath => layer.certPath
  | .socketPath => layer.socketPath
  | .cache => layer.cache
  | .maxCacheSize => layer.maxCacheSize
  | .resolver => layer.resolver
  | .selector => layer.selector
  | .maxEventStreamRetries => layer.maxEventStreamRetries
  | .retryBackoff => layer.retryBackoffMs
  | .retryBackoffMax => layer.retryBackoffMaxMs
  | .deadline => layer.deadlineMs
  | .streamDeadline => layer.streamDeadlineMs
  | .offlineFlagSourcePath => layer.offlineFlagSourcePath
  | .offlinePollInterval => layer.offlinePollIntervalMs
  | .syncMode => layer.syncMode
  | .pollInterval => layer.pollIntervalMs
  | .syncToken => layer.syncToken

/-- What a configuration has for a setting. -/
def ResolverConfig.get (config : ResolverConfig) : (s : Setting) → s.Value
  | .host => config.host
  | .port => config.port
  | .tls => config.tls
  | .certPath => config.certPath
  | .socketPath => config.socketPath
  | .cache => config.cache
  | .maxCacheSize => config.maxCacheSize
  | .resolver => config.resolver
  | .selector => config.selector
  | .maxEventStreamRetries => config.maxEventStreamRetries
  | .retryBackoff => config.retryBackoff
  | .retryBackoffMax => config.retryBackoffMax
  | .deadline => config.deadline
  | .streamDeadline => config.streamDeadline
  | .offlineFlagSourcePath => config.offlineFlagSourcePath
  | .offlinePollInterval => config.offlinePollInterval
  | .syncMode => config.syncMode
  | .pollInterval => config.pollInterval
  | .syncToken => config.syncToken

/-- A configuration is nothing but its settings. -/
theorem ResolverConfig.ext_get {a b : ResolverConfig} (h : ∀ s, a.get s = b.get s) : a = b := by
  obtain ⟨_⟩ := a
  obtain ⟨_⟩ := b
  rw [ResolverConfig.mk.injEq]
  exact ⟨h .host, h .port, h .tls, h .certPath, h .socketPath, h .cache, h .maxCacheSize,
    h .resolver, h .selector, h .maxEventStreamRetries, h .retryBackoff, h .retryBackoffMax,
    h .deadline, h .streamDeadline, h .offlineFlagSourcePath, h .offlinePollInterval, h .syncMode,
    h .pollInterval, h .syncToken⟩

namespace ConfigLayer

@[simp] theorem get_empty (s : Setting) : ({} : ConfigLayer).get s = none := by
  cases s <;> rfl

/-- Of two layers that are merged, the second decides what it sets. -/
@[simp] theorem get_merge (layer other : ConfigLayer) (s : Setting) :
    (layer.merge other).get s = (other.get s).or (layer.get s) := by
  cases s <;> exact Option.orElse_eq_or ..

/-- What a layer sets goes into the configuration, and the rest is as in the default one. -/
theorem get_finish (layer : ConfigLayer) (s : Setting) :
    layer.finish.get s = (layer.get s).elim (({} : ResolverConfig).get s) s.value := by
  -- a setting is either taken as it is, or need not be there, or is a duration
  have taken {α : Type} (given : Option α) (default : α) :
      given.getD default = given.elim default id := by cases given <;> rfl
  have optional {α : Type} (given : Option α) : given = given.elim none some := by
    cases given <;> rfl
  have lasting (ms : Option UInt64) (default : Duration) :
      duration ms default = ms.elim default fun n => .ofMilliseconds n.toNat := by
    cases ms <;> rfl
  cases s
  case certPath | socketPath | selector | offlineFlagSourcePath | syncToken => exact optional _
  case retryBackoff | retryBackoffMax | deadline | streamDeadline | offlinePollInterval
    | pollInterval => exact lasting _ _
  all_goals exact taken _ _

end ConfigLayer

end FeatureFlags
