import SellRight.JsonText

/-!
# Per-app device policy

The registry is a function of the app key; `none` is an app without a
registered policy. Pools and platforms stay open text as in the registry.
A missing cap is no cap at all, never a large number.
-/

namespace SellRight.LicenseDevicePolicy

open JsonText

/-- Stored class and pool of one trusted activation source. -/
structure SourceClass where
  /-- Legacy class label written beside the pool. -/
  deviceClass : String
  pool : String

/-- One registered device policy. Absent members use the engine defaults. -/
structure DevicePolicy where
  /-- Marker stamped onto licences issued under this policy. -/
  marker : String
  /-- Largest number of active devices of a pool; a missing pool is uncapped. -/
  poolCaps : String → Option Int := fun _ => none
  /-- Pools whose platforms may hold a lease directly. -/
  leasablePools : Option (List String) := none
  platformPools : String → Option String := fun _ => none
  leaseTtlSeconds : Option Int := none
  leaseGraceSeconds : Option Int := none
  activationSources : Option (String → Option SourceClass) := none

/-- Registered policies by app key. -/
abbrev Registry := String → Option DevicePolicy

/-- Platform taxonomy of the engine. -/
def DEFAULT_PLATFORM_POOL (platform : String) : Option String :=
  if platform = "macos" ∨ platform = "windows" ∨ platform = "linux" then some "computer"
  else if platform = "ios" ∨ platform = "ipados" ∨ platform = "android" then some "mobile"
  else if platform = "watchos" then some "companion"
  else none

/-- Default lease lifetime, seven days. -/
def DEFAULT_LEASE_TTL_SECONDS : Int := 7*86400

/-- Default offline grace, fourteen days. -/
def DEFAULT_LEASE_GRACE_SECONDS : Int := 14*86400

/-- Pools that may hold a lease when the policy names none. -/
def DEFAULT_LEASABLE_POOLS : List String := ["computer", "mobile"]

/-- Activation sources when the policy names none. -/
def DEFAULT_ACTIVATION_SOURCES (source : String) : Option SourceClass :=
  if source = "desktop" then some ⟨"desktop", "computer"⟩ else none

variable (devicePolicyFor : Registry)

/-- The licence metadata carries the app's current marker. -/
def hasCurrentDevicePolicy (appKey : String) (metadata : Json) : Bool :=
  match devicePolicyFor appKey, metadata.get "device_policy" with
  | some policy, some (.str marker) => marker=policy.marker
  | _, _ => false

/-- Positive-seat and marked licences of a registered app use bounded pools. -/
def usesBoundedDevicePools (appKey : String) (seats : Int) (metadata : Json) : Bool :=
  match devicePolicyFor appKey with
  | none => false
  | some _ => decide (0<seats)||hasCurrentDevicePolicy devicePolicyFor appKey metadata

/-- An empty text is no value, as in the source's truthiness tests. -/
def nonempty (value : Option String) : Option String := value.filter fun text => text ≠ ""

/-- Pool of a platform, honouring nonempty overrides. -/
def derivePool (appKey platform : String) : Option String :=
  match nonempty ((devicePolicyFor appKey).bind fun policy => policy.platformPools platform) with
  | some override => some override
  | none => DEFAULT_PLATFORM_POOL platform

/-- Cap of a pool; `none` stands for positive infinity. -/
def poolCap (appKey pool : String) : Option Int :=
  (devicePolicyFor appKey).bind fun policy => policy.poolCaps pool

/-- Whether a pool may hold a lease directly. -/
def leasablePool (appKey pool : String) : Bool :=
  (((devicePolicyFor appKey).bind DevicePolicy.leasablePools).getD DEFAULT_LEASABLE_POOLS).contains
    pool

/-- Lease lifetime of an app in seconds. -/
def leaseTtlSecondsFor (appKey : String) : Int :=
  ((devicePolicyFor appKey).bind DevicePolicy.leaseTtlSeconds).getD DEFAULT_LEASE_TTL_SECONDS

/-- Offline grace of an app in seconds. -/
def leaseGraceSecondsFor (appKey : String) : Int :=
  ((devicePolicyFor appKey).bind DevicePolicy.leaseGraceSeconds).getD DEFAULT_LEASE_GRACE_SECONDS

/-- Stored class and pool of a trusted source; only registered apps have any. -/
def activationSourceDefaults (appKey source : String) : Option SourceClass :=
  match devicePolicyFor appKey with
  | none => none
  | some policy => (policy.activationSources.getD DEFAULT_ACTIVATION_SOURCES) source

/-- Trusted source classification used by the legacy activate path. -/
def deriveDeviceClassAndPool (appKey source : String) : Option SourceClass :=
  activationSourceDefaults devicePolicyFor appKey source

/-- Interpret a stored row's pool: the column when it is set, otherwise the
legacy class vocabulary. -/
def storedPool (pool deviceClass : Option String) : Option String :=
  match nonempty pool with
  | some pool => some pool
  | none =>
    if deviceClass=some "mac" ∨ deviceClass=some "windows" ∨ deviceClass=some "desktop" then
      some "computer"
    else if deviceClass=some "iphone" ∨ deviceClass=some "android" then some "mobile"
    else none

/-- The occupancy test `length >= cap`, false at an infinite cap. -/
def atCap (count : ℕ) : Option Int → Bool
  | none => false
  | some cap => decide (cap≤count)

theorem storedPool_of_ne {pool : String} (hpoo : pool ≠ "") (deviceClass : Option String) :
    storedPool (some pool) deviceClass=some pool := by
  simp [storedPool,nonempty,Option.filter,hpoo]

/-- A derived pool is never the empty text. -/
theorem derivePool_ne {appKey platform pool : String}
    (h : derivePool devicePolicyFor appKey platform=some pool) : pool ≠ "" := by
  unfold derivePool at h
  split at h
  · next override hove =>
    cases h
    have hmem := Option.filter_eq_some_iff.mp hove
    simpa using hmem.2
  · next _ =>
    unfold DEFAULT_PLATFORM_POOL at h
    split_ifs at h <;> · cases h; decide

end SellRight.LicenseDevicePolicy
