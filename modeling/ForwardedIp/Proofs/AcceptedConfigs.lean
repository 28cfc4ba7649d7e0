import ForwardedIp.Daemon.Environment
import ForwardedIp.Metadata.Source
import ForwardedIp.Proofs.Basics
import ForwardedIp.Reconciler.Manager
/-!
# What validation lets through

The limits of the platform are not among the conditions that a configuration is checked for: two
timeouts are added in 64 bits, and an event channel has a largest capacity. An accepted
configuration is built exactly if it keeps to them. The daemon checks more, and whatever it accepts
from its environment can be built.
-/
namespace ForwardedIp

namespace Config
variable {c : Config}

theorem validate_parts (h : c.validate = .ok ()) :
    c.metadata.validate = .ok () ∧ c.engine.validate = .ok () := by
  obtain ⟨_, hmetadata, h⟩ := ok_of_bind h
  obtain ⟨_, -, h⟩ := ok_of_bind h
  obtain ⟨_, hengine, -⟩ := ok_of_bind h
  exact ⟨hmetadata, hengine⟩

end Config

namespace MetadataSource
variable {c : MetadataConfig}

theorem start_ne_crash_iff (h : c.validate = .ok ()) (client : Option String) :
    start c client ≠ .error .crash ↔ totalTimeout c < UInt64.size := by
  unfold start
  simp only [h]
  split
  · next hlong => simpa using hlong
  · next hshort => cases client <;> simpa using hshort

theorem start_ok_iff (h : c.validate = .ok ()) :
    (∃ source, start c none = .ok source) ↔ totalTimeout c < UInt64.size := by
  unfold start
  simp only [h]
  split
  · next hlong => simpa using hlong
  · next hshort => simpa using hshort

end MetadataSource

namespace Manager
variable {c : EngineConfig}

theorem start_ne_crash_iff (h : c.validate = .ok ()) (overrides : LocalConfig) :
    start c overrides ≠ .error .crash ↔ c.eventChannelCapacity.toNat ≤ channelLimit := by
  unfold start
  simp only [h]
  split
  · next hlarge => simpa using hlarge
  · next hsmall => simpa using hsmall

theorem start_ok_iff (h : c.validate = .ok ()) (overrides : LocalConfig) :
    (∃ manager, start c overrides = .ok manager) ↔
      c.eventChannelCapacity.toNat ≤ channelLimit := by
  unfold start
  simp only [h]
  split
  · next hlarge => simpa using hlarge
  · next hsmall => simpa using hsmall

end Manager

namespace DaemonConfig
variable {vars : String → Option String} {c : DaemonConfig}

theorem checkRange_ok {name : String} {secs most : UInt64}
    (h : checkRange name secs most = .ok ()) : 1 ≤ secs.toNat ∧ secs.toNat ≤ most.toNat := by
  unfold checkRange at h
  split at h
  · next hrange => exact ⟨UInt64.le_iff_toNat_le.mp hrange.1, UInt64.le_iff_toNat_le.mp hrange.2⟩
  · cases h

/-- The seconds of a configuration that the daemon accepts. -/
structure Limits (c : DaemonConfig) : Prop where
  timeout : 1 ≤ c.core.metadata.timeoutSecs.toNat ∧ c.core.metadata.timeoutSecs.toNat ≤ 300
  poll : 1 ≤ c.core.engine.pollIntervalSecs.toNat ∧ c.core.engine.pollIntervalSecs.toNat ≤ 3600
  retry : 1 ≤ c.core.engine.retryDelaySecs.toNat ∧ c.core.engine.retryDelaySecs.toNat ≤ 300

theorem limits_of_validate (h : c.validate = .ok ()) : c.core.validate = .ok () ∧ c.Limits := by
  obtain ⟨_, hlimits, -⟩ := ok_of_bind h
  obtain ⟨_, hcore, hlimits⟩ := ok_of_bind hlimits
  obtain ⟨_, htimeout, hlimits⟩ := ok_of_bind hlimits
  obtain ⟨_, hpoll, hretry⟩ := ok_of_bind hlimits
  exact ⟨hcore, checkRange_ok htimeout, checkRange_ok hpoll, checkRange_ok hretry⟩

/-- What no variable sets has its default. -/
theorem unset_of_ofVariables (h : ofVariables vars = .ok c) :
    c.core.metadata.waitTimeoutSecs = 60 ∧ c.core.engine.eventChannelCapacity = 1000 := by
  obtain ⟨metadata, hmetadata, h⟩ := ok_of_bind h
  obtain ⟨ledger, -, h⟩ := ok_of_bind h
  obtain ⟨engine, hengine, h⟩ := ok_of_bind h
  cases h
  obtain ⟨_, -, hmetadata⟩ := ok_of_bind hmetadata
  obtain ⟨_, -, hmetadata⟩ := ok_of_bind hmetadata
  obtain ⟨_, -, hengine⟩ := ok_of_bind hengine
  obtain ⟨_, -, hengine⟩ := ok_of_bind hengine
  cases hmetadata
  cases hengine
  exact ⟨rfl, rfl⟩

theorem fits_of_accepted (hread : ofVariables vars = .ok c) (hvalid : c.validate = .ok ()) :
    MetadataSource.totalTimeout c.core.metadata < UInt64.size ∧
      c.core.engine.eventChannelCapacity.toNat ≤ Manager.channelLimit := by
  obtain ⟨hwait, hcapacity⟩ := unset_of_ofVariables hread
  obtain ⟨-, hlimits⟩ := limits_of_validate hvalid
  constructor
  · have hadded : (if c.core.metadata.waitForChange then (60 : UInt64).toNat else 0) ≤ 60 := by
      split <;> decide
    have htimeout := hlimits.timeout.2
    unfold MetadataSource.totalTimeout
    rw [hwait]
    calc _ ≤ 300 + 60 := Nat.add_le_add htimeout hadded
      _ < UInt64.size := by decide
  · rw [hcapacity]
    decide

end DaemonConfig

namespace Config

/-- The parts of an accepted configuration are built, and do not stop the process, exactly if its
timeouts can be added in 64 bits and its event channel is not too large. The HTTP client may still
fail, which is told. What the daemon accepts from its environment keeps to both limits. -/
theorem built_iff_fits (c : Config) (hvalid : c.validate = .ok ()) :
    (((∃ source, MetadataSource.start c.metadata none = .ok source) ↔
        MetadataSource.totalTimeout c.metadata < UInt64.size) ∧
      ∀ client, MetadataSource.start c.metadata client ≠ .error .crash ↔
        MetadataSource.totalTimeout c.metadata < UInt64.size) ∧
    (∀ overrides, ((∃ manager, Manager.start c.engine overrides = .ok manager) ↔
        c.engine.eventChannelCapacity.toNat ≤ Manager.channelLimit) ∧
      (Manager.start c.engine overrides ≠ .error .crash ↔
        c.engine.eventChannelCapacity.toNat ≤ Manager.channelLimit)) ∧
    ∀ vars d, DaemonConfig.ofVariables vars = .ok d → d.validate = .ok () → d.core = c →
      MetadataSource.totalTimeout c.metadata < UInt64.size ∧
        c.engine.eventChannelCapacity.toNat ≤ Manager.channelLimit := by
  obtain ⟨hmetadata, hengine⟩ := validate_parts hvalid
  refine ⟨⟨MetadataSource.start_ok_iff hmetadata, MetadataSource.start_ne_crash_iff hmetadata⟩,
    fun overrides => ⟨Manager.start_ok_iff hengine overrides,
      Manager.start_ne_crash_iff hengine overrides⟩, ?_⟩
  rintro vars d hread haccepted rfl
  exact DaemonConfig.fits_of_accepted hread haccepted

/-- The longest timeout and the largest channel that fit. -/
def largest : Config where
  metadata := { timeoutSecs := 18446744073709551614, waitTimeoutSecs := 1 }
  engine := { eventChannelCapacity := 2305843009213693951 }

theorem largest_built : largest.validate = .ok () ∧
    (∃ source, MetadataSource.start largest.metadata none = .ok source) ∧
      ∃ manager, Manager.start largest.engine .empty = .ok manager := by
  have hvalid : largest.validate = .ok () := rfl
  obtain ⟨⟨hsource, -⟩, hmanager, -⟩ := built_iff_fits largest hvalid
  exact ⟨hvalid, hsource.mpr (by decide), (hmanager .empty).1.mpr (by decide)⟩

/-- One second more. -/
def overlong : Config where
  metadata := { timeoutSecs := 18446744073709551615, waitTimeoutSecs := 1 }

/-- Room for one event more. -/
def overlarge : Config where
  engine := { eventChannelCapacity := 2305843009213693952 }

/-- Either limit can be passed by a configuration that is accepted. -/
theorem accepted_crashes :
    (¬ ∀ c : Config, c.validate = .ok () → ∀ client,
      MetadataSource.start c.metadata client ≠ .error .crash) ∧
    ¬ ∀ c : Config, c.validate = .ok () → ∀ overrides,
      Manager.start c.engine overrides ≠ .error .crash := by
  constructor
  · intro hall
    exact hall overlong rfl none rfl
  · intro hall
    exact hall overlarge rfl .empty rfl

end Config
end ForwardedIp
