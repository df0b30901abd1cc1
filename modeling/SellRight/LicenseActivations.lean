import SellRight.LicenseDevicePolicy
import SellRight.RowTable

/-!
# Licence, activation and StoreKit purchase rows with their eight writers

Every writer runs in one transaction under row locks, so it is one atomic
step from a database to an answer and a database. A refused or failed step
returns the database it met. Random identifiers, the clock and the signer
are inputs; the entitlement policy is a parameter and may also veto. Column
bookkeeping that no modelled reader uses (`updatedAt`, entitlement token
inventory) is left out.
-/

namespace SellRight.LicenseActivations

open JsonText LicenseDevicePolicy RowTable

/-- Licence lifecycle status. -/
inductive LicenseStatus where
  | active | revoked | expired
  deriving DecidableEq

/-- Activation state; the last two are tombstones. -/
inductive ActivationState where
  | active | removed | revoked
  deriving DecidableEq

structure LicenseRow where
  (id storeId appKey licenseKey : String)
  status : LicenseStatus
  /-- Flat device cap; zero and below mean no flat cap. -/
  seats : Int
  expiresAt : Option Int
  /-- End of the update window in epoch milliseconds. -/
  updatesUntil : Option Int
  /-- Free metadata; the device policy marker lives here. -/
  metadata : Json

structure ActivationRow where
  (id storeId licenseId appKey deviceIdHash : String)
  activationTokenHash : Option String
  deviceLabel : Option String := none
  deviceClass : Option String := none
  platform : Option String := none
  pool : Option String := none
  state : ActivationState := .active
  /-- Bumped by every revocation and removal. -/
  generation : ℕ := 0
  revokedAt : Option Int := none
  removedAt : Option Int := none
  leaseId : Option String := none
  leaseIssuedAt : Option Int := none
  leaseExpiresAt : Option Int := none
  leaseGraceSeconds : Option Int := none
  lastSeenAt : Int := 0

inductive PurchaseStatus where
  | active | revoked | expired

structure PurchaseRow where
  (id storeId : String)
  licenseId : Option String
  (environment originalTransactionId : String)
  transactionId : Option String
  status : PurchaseStatus
  (expiresAt revocationDate : Option Int)
  (lastNotificationType lastNotificationUuid : Option String)

/-- The three tables read and written here. -/
structure Database where
  licenses : List LicenseRow
  activations : List ActivationRow
  purchases : List PurchaseRow

/-- The unique indexes of `license_activation`: primary key, licence with
device, and the partial index on activation token hashes. -/
def UniqueRows (rows : List ActivationRow) : Prop :=
  (rows.map ActivationRow.id).Nodup∧(rows.map fun row => (row.licenseId,row.deviceIdHash)).Nodup ∧
    (rows.filterMap ActivationRow.activationTokenHash).Nodup

instance (rows : List ActivationRow) : Decidable (UniqueRows rows) :=
  inferInstanceAs (Decidable (_∧_∧_))

/-- Granting path named to the entitlement policy. -/
inductive EntitlementPath where
  | activate | leaseIssue | leaseRenew | storekitLink

/-- Everything the policy may read besides the transaction. -/
structure AuthorizeContext where
  path : EntitlementPath
  storeId : String
  license : LicenseRow
  (platform pool : Option String)
  ext : Json
  now : Int

/-- Policy decision; the two denials differ only in what the caller sees. -/
inductive PolicyDecision where
  | allow
  | denyNotfound
  | denyPlatform (reason : String)

/-- Facts signed into one lease envelope. -/
structure LeaseCore where
  (leaseId deviceIdHash : String)
  pool : Option String
  (issuedAt expiresAt graceSeconds : Int)
  generation : ℕ
  /-- Policy claim, when the policy supplies one. -/
  entitlementScope : Option String

/-- A lease envelope as returned to the device. -/
structure LeaseEnvelope where
  core : LeaseCore
  (entitlement signature : Option String)

/-- Registered policies, the signer and the digest. The policy may read the
whole transaction and may throw a veto. -/
structure Engine where
  devicePolicyFor : Registry
  /-- Registered entitlement policy; an error is a thrown veto. -/
  authorize : Database → AuthorizeContext → Except String PolicyDecision
  /-- Registered capacity bypass, by licence and pool. -/
  policyLeaseUnlimited : LicenseRow → String → Bool
  policyClaims : EntitlementPath → LicenseRow → Option String → Option String
  sha256 : String → String
  entitlementToken : LicenseRow → String → Option String → List Int → Int → Option String
  signLeaseEnvelope : LeaseCore → Option String

/-- Random values drawn by one step. -/
structure Fresh where
  (activationId activationToken leaseId : String)

/-- Request of `issueDeviceLease`. -/
structure IssueInput where
  (storeId appKey licenseKey deviceIdHash platform : String)
  deviceLabel : Option String := none
  ext : Json := .obj []
  offeredVersions : List Int := []

/-- Request of `renewDeviceLease`. -/
structure RenewInput where
  (storeId appKey deviceIdHash leaseId : String)
  ext : Json := .obj []
  offeredVersions : List Int := []

/-- Request of `activateLicenseOnDevice`. -/
structure ActivateInput where
  (storeId appKey licenseKey deviceId : String)
  deviceLabel : Option String := none
  /-- Trusted server-side classification of the route. -/
  activationSource : Option String := none
  ext : Json := .obj []

/-- Request of `issueStoreKitActivation`. -/
structure LinkInput where
  (storeId appKey licenseKey deviceIdHash : String)
  deviceLabel : Option String := none
  platform : Option String := none

/-- Action of a verified App Store notification. -/
inductive NotificationAction where
  | revoke | restore | renew | expire | ignore
  deriving DecidableEq

/-- Request of `applyStoreKitNotification`. -/
structure NotificationInput where
  storeId : String
  action : NotificationAction
  (environment originalTransactionId : String)
  transactionId : Option String := none
  notificationType : String := ""
  notificationUUID : String := ""
  expiresDate : Option Int := none
  revocationDate : Option Int := none
  /-- Policy option; only an explicit false keeps tombstones on restore. -/
  restoreActivations : Option Bool := none

section
variable (db : Database) (storeId appKey licenseKey : String)

/-- Licence by store, app and key, under its row lock. -/
def lockLicense : Option LicenseRow :=
  db.licenses.find? fun lic => lic.licenseKey=licenseKey∧lic.appKey=appKey∧lic.storeId=storeId

/-- The same licence when it is active and not past its expiry. -/
def lockActiveLicense (now : Int) : Option LicenseRow :=
  match lockLicense db storeId appKey licenseKey with
  | none => none
  | some lic =>
    if lic.status≠.active then none
    else if lic.expiresAt.any (fun expiry => decide (expiry≤now)) then none
    else some lic

end

/-- Second-precision expiry test of the two activation paths. -/
def expiredSecond (expiresAt : Option Int) (now : Int) : Bool :=
  expiresAt.any fun expiry => decide (expiry / 1000≤now / 1000)

variable (db : Database)

/-- Live rows of a licence. -/
def activeRows (licenseId : String) : List ActivationRow :=
  db.activations.filter fun row => decide (row.licenseId=licenseId)&&decide (row.state=.active)

/-- The row of a licence and device, live or tombstoned. -/
def deviceRow (licenseId deviceIdHash : String) : Option ActivationRow :=
  db.activations.find? fun row =>
    decide (row.licenseId=licenseId)&&decide (row.deviceIdHash=deviceIdHash)

/-- Legacy class written beside a platform. -/
def legacyDeviceClassFor (platform : String) : String :=
  if platform = "macos" then "mac"
  else if platform = "windows" then "windows"
  else if platform = "ios" ∨ platform = "ipados" then "iphone"
  else if platform = "android" then "android"
  else if platform = "watchos" then "watch"
  else platform

/-- Answers of the modelled writers. -/
inductive Outcome where
  /-- Unknown or inactive licence, row or device. -/
  | notfound
  | rejectedPlatform (reason : String)
  | full
  | revoked
  | leaseIssued (lease : LeaseEnvelope) (activationId activationToken : String)
  | leaseRenewed (lease : LeaseEnvelope)
  | activated (activationId activationToken : String)
  | ok
  | applied
  /-- The notification names a purchase this store never saw. -/
  | noPurchase
  | ignored
  | threw (message : String)

/-- Commit a rewritten activation table, unless a unique index refuses it. -/
def commit (rows : List ActivationRow) (answer : Outcome) : Outcome×Database :=
  if UniqueRows rows then (answer,{db with activations := rows})
  else (.threw "unique constraint",db)

/-- What `issueDeviceLease` decided before it writes. -/
structure LeaseAdmission where
  lic : LicenseRow
  pool : String
  sameDevice : Option ActivationRow

def liveDeviceRow (licenseId deviceIdHash : String) : Option ActivationRow :=
  (activeRows db licenseId).find? fun row => row.deviceIdHash=deviceIdHash

section
variable (engine : Engine)

/-- Capacity test of `issueDeviceLease`: pool caps under a registered policy,
the flat seat count otherwise. -/
def leaseFull (db : Database) (lic : LicenseRow) (pool deviceIdHash : String) : Bool :=
  let policy := engine.devicePolicyFor lic.appKey
  let unlimited := engine.policyLeaseUnlimited lic pool ||
    (decide (lic.seats≤0) &&
      !usesBoundedDevicePools engine.devicePolicyFor lic.appKey lic.seats lic.metadata)
  let existing := activeRows db lic.id
  let sameDevice := liveDeviceRow db lic.id deviceIdHash
  let moves := sameDevice.any fun row => decide (row.pool≠some pool)
  let cap := if policy.isSome then poolCap engine.devicePolicyFor lic.appKey pool
    else some lic.seats
  let inScope := if policy.isSome then existing.filter fun row => row.pool=some pool
    else existing
  (sameDevice.isNone||(policy.isSome&&moves)) && !unlimited&&atCap inScope.length cap

/-- Every check of `issueDeviceLease` that precedes its first write. -/
def admitLease (db : Database) (now : Int) (input : IssueInput) : Except Outcome LeaseAdmission :=
  match derivePool engine.devicePolicyFor input.appKey input.platform with
  | none => .error (.rejectedPlatform ("unknown platform \"" ++ input.platform ++ "\""))
  | some pool =>
    if leasablePool engine.devicePolicyFor input.appKey pool=false then
      .error (.rejectedPlatform ("platform \"" ++ input.platform ++
        "\" resolves to a companion pool — companion devices do not activate a license directly"))
    else match lockActiveLicense db input.storeId input.appKey input.licenseKey now with
    | none => .error .notfound
    | some lic =>
      match engine.authorize db ⟨.leaseIssue,input.storeId,lic,some input.platform,some pool,
          input.ext,now⟩ with
      | .error veto => .error (.threw veto)
      | .ok (.denyPlatform reason) => .error (.rejectedPlatform reason)
      | .ok .denyNotfound => .error .notfound
      | .ok .allow =>
        if leaseFull engine db lic pool input.deviceIdHash then .error .full
        else .ok ⟨lic,pool,liveDeviceRow db lic.id input.deviceIdHash⟩

/-- Columns set by a lease on any existing row of the device. -/
def leaseRow (lic : LicenseRow) (pool : String) (input : IssueInput)
    (fresh : Fresh) (now : Int) (row : ActivationRow) : ActivationRow :=
  {row with
    activationTokenHash := some (engine.sha256 fresh.activationToken)
    platform := some input.platform
    pool := some pool
    deviceClass := some (legacyDeviceClassFor input.platform)
    state := .active
    leaseId := some fresh.leaseId
    leaseIssuedAt := some now
    leaseExpiresAt := some (now+leaseTtlSecondsFor engine.devicePolicyFor lic.appKey*1000)
    leaseGraceSeconds := some (leaseGraceSecondsFor engine.devicePolicyFor lic.appKey)
    lastSeenAt := now}

/-- Envelope handed out for a freshly written lease. -/
def leaseEnvelope (path : EntitlementPath) (lic : LicenseRow)
    (pool : Option String) (deviceIdHash : String) (versions : List Int) (leaseId : String)
    (generation : ℕ) (now : Int) : LeaseEnvelope :=
  let scope := engine.policyClaims path lic pool
  let core : LeaseCore := ⟨leaseId,deviceIdHash,pool,now,
    now+leaseTtlSecondsFor engine.devicePolicyFor lic.appKey*1000,
    leaseGraceSecondsFor engine.devicePolicyFor lic.appKey,generation,scope⟩
  ⟨core,engine.entitlementToken lic deviceIdHash scope versions now,engine.signLeaseEnvelope core⟩

section
variable (db : Database) (now : Int)

/-- Table, activation and generation written for an admitted lease: the live
row is rewritten, else the tombstone is reused with its generation, else a
row is inserted at generation zero. -/
def leaseWrite (input : IssueInput) (fresh : Fresh)
    (plan : LeaseAdmission) : List ActivationRow×String×ℕ :=
  let rewrite := leaseRow engine plan.lic plan.pool input fresh now
  match plan.sameDevice with
  | some live =>
    (updateWhere (fun row => row.id=live.id)
      (fun row => {rewrite row with deviceLabel := input.deviceLabel <|> row.deviceLabel})
      db.activations,live.id,live.generation)
  | none =>
    match deviceRow db plan.lic.id input.deviceIdHash with
    | some tombstoned =>
      (updateWhere (fun row => row.id=tombstoned.id)
        (fun row => {rewrite row with deviceLabel := input.deviceLabel,removedAt := none})
        db.activations,tombstoned.id,tombstoned.generation)
    | none =>
      (db.activations++[rewrite
        { id := fresh.activationId,storeId := input.storeId,licenseId := plan.lic.id,
          appKey := input.appKey, deviceIdHash := input.deviceIdHash,
          activationTokenHash := none, deviceLabel := input.deviceLabel}],
        fresh.activationId,0)

/-- Issue, or re-issue for the same device, a device lease. -/
def issueDeviceLease (fresh : Fresh) (input : IssueInput) : Outcome×Database :=
  match admitLease engine db now input with
  | .error answer => (answer,db)
  | .ok plan =>
    let write := leaseWrite engine db now input fresh plan
    commit db write.1 (.leaseIssued
      (leaseEnvelope engine .leaseIssue plan.lic (some plan.pool) input.deviceIdHash
        input.offeredVersions fresh.leaseId write.2.2 now)
      write.2.1 fresh.activationToken)

/-- Every check of `renewDeviceLease`: the row and its licence, or a refusal. -/
def admitRenewal (input : RenewInput) : Except Outcome (ActivationRow×LicenseRow) :=
  match db.activations.find? fun row =>
      decide (row.storeId=input.storeId)&&decide (row.appKey=input.appKey) &&
        decide (row.deviceIdHash=input.deviceIdHash)&&decide (row.leaseId=some input.leaseId) with
  | none => .error .notfound
  | some row =>
    if row.state≠.active then .error .revoked
    else if row.leaseId≠some input.leaseId then .error .notfound
    else match db.licenses.find? fun lic => lic.id=row.licenseId with
    | none => .error .revoked
    | some lic =>
      if lic.status≠.active∨lic.expiresAt.any (fun expiry => decide (expiry≤now))=true then
        .error .revoked
      else match engine.authorize db ⟨.leaseRenew,input.storeId,lic,none,row.pool,input.ext,
          now⟩ with
      | .error veto => .error (.threw veto)
      | .ok .allow => .ok (row,lic)
      | .ok _ => .error .revoked

end

/-- Columns of a rotated lease. -/
def renewedRow (lic : LicenseRow) (fresh : Fresh) (now : Int)
    (row : ActivationRow) : ActivationRow :=
  {row with
    leaseId := some fresh.leaseId
    leaseIssuedAt := some now
    leaseExpiresAt := some (now+leaseTtlSecondsFor engine.devicePolicyFor lic.appKey*1000)
    leaseGraceSeconds := some (leaseGraceSecondsFor engine.devicePolicyFor lic.appKey)
    lastSeenAt := now}

/-- Renew a lease by its current id, rotating that id. -/
def renewDeviceLease (db : Database) (now : Int) (fresh : Fresh)
    (input : RenewInput) : Outcome×Database :=
  match admitRenewal engine db now input with
  | .error answer => (answer,db)
  | .ok (row,lic) =>
    (.leaseRenewed (leaseEnvelope engine .leaseRenew lic row.pool input.deviceIdHash
        input.offeredVersions fresh.leaseId row.generation now),
      {db with
        activations := updateWhere (fun r => r.id=row.id) (renewedRow engine lic fresh now)
          db.activations})

end

/-- What `activateLicenseOnDevice` decided before it writes. -/
structure ActivationAdmission where
  lic : LicenseRow
  sameDevice : Option ActivationRow
  derived : Option SourceClass

def isLive (sameDevice : Option ActivationRow) : Bool :=
  sameDevice.any fun row => decide (row.state=.active)

/-- Flat seat test shared by the activate and link paths: only a live row of
the device already holds a seat. -/
def seatsFull (lic : LicenseRow) (deviceIdHash : String) : Bool :=
  decide (0<lic.seats) && !isLive (deviceRow db lic.id deviceIdHash) &&
    decide (lic.seats≤(activeRows db lic.id).length)

section
variable (engine : Engine)

/-- Pool test of `activateLicenseOnDevice`, leaving the device itself out. -/
def poolFull (db : Database) (lic : LicenseRow) (appKey pool : String)
    (sameDevice : Option ActivationRow) : Bool :=
  let movingPool := decide
    (sameDevice.bind (fun row => storedPool row.pool row.deviceClass)≠some pool)
  let occupied := (activeRows db lic.id).filter fun row =>
    !decide (sameDevice.map ActivationRow.id=some row.id) &&
      decide (storedPool row.pool row.deviceClass=some pool)
  usesBoundedDevicePools engine.devicePolicyFor appKey lic.seats lic.metadata &&
    (!isLive sameDevice||movingPool) &&
    atCap occupied.length (poolCap engine.devicePolicyFor appKey pool)

/-- Every check of `activateLicenseOnDevice` that precedes its first write. -/
def admitActivation (db : Database) (now : Int) (input : ActivateInput) :
    Except Outcome ActivationAdmission :=
  match lockLicense db input.storeId input.appKey input.licenseKey with
  | none => .error .notfound
  | some lic =>
    if lic.status≠.active then .error .notfound
    else match engine.authorize db ⟨.activate,input.storeId,lic,none,none,input.ext,now⟩ with
    | .error veto => .error (.threw veto)
    | .ok (.denyPlatform reason) => .error (.rejectedPlatform reason)
    | .ok .denyNotfound => .error .notfound
    | .ok .allow =>
      if expiredSecond lic.expiresAt now=true then .error .notfound
      else
        let deviceIdHash := engine.sha256 input.deviceId
        let sameDevice := deviceRow db lic.id deviceIdHash
        let derived := deriveDeviceClassAndPool engine.devicePolicyFor input.appKey
          (input.activationSource.getD "desktop")
        if seatsFull db lic deviceIdHash then .error .full
        else if (nonempty (derived.map SourceClass.pool)).any
            (fun pool => poolFull engine db lic input.appKey pool sameDevice) then .error .full
        else .ok ⟨lic,sameDevice,derived⟩

/-- Columns set when a known device is activated again. -/
def reactivatedRow (input : ActivateInput) (derived : Option SourceClass)
    (fresh : Fresh) (now : Int) (row : ActivationRow) : ActivationRow :=
  {row with
    activationTokenHash := some (engine.sha256 fresh.activationToken)
    lastSeenAt := now
    deviceLabel := input.deviceLabel
    deviceClass := nonempty (derived.map SourceClass.deviceClass) <|> row.deviceClass
    pool := nonempty (derived.map SourceClass.pool) <|> row.pool
    state := .active
    revokedAt := none
    removedAt := none}

def activateLicenseOnDevice (db : Database) (now : Int) (fresh : Fresh)
    (input : ActivateInput) : Outcome×Database :=
  match admitActivation engine db now input with
  | .error answer => (answer,db)
  | .ok plan =>
    match plan.sameDevice with
    | some row =>
      commit db (updateWhere (fun r => r.id=row.id)
        (reactivatedRow engine input plan.derived fresh now) db.activations)
        (.activated row.id fresh.activationToken)
    | none =>
      commit db (db.activations ++
        [{ id := fresh.activationId,storeId := input.storeId,licenseId := plan.lic.id,
           appKey := input.appKey, deviceIdHash := engine.sha256 input.deviceId,
           activationTokenHash := some (engine.sha256 fresh.activationToken),
           deviceLabel := input.deviceLabel,
           deviceClass := plan.derived.map SourceClass.deviceClass,
           pool := plan.derived.map SourceClass.pool, lastSeenAt := now}])
        (.activated fresh.activationId fresh.activationToken)

/-- Every check of `issueStoreKitActivation` that precedes its first write. -/
def admitLink (db : Database) (now : Int) (input : LinkInput) :
    Except Outcome (LicenseRow×Option ActivationRow) :=
  match lockLicense db input.storeId input.appKey input.licenseKey with
  | none => .error .notfound
  | some lic =>
    if lic.status≠.active then .error .notfound
    else if expiredSecond lic.expiresAt now=true then .error .notfound
    else match engine.authorize db ⟨.storekitLink,input.storeId,lic,
        some (input.platform.getD "ios"),some "mobile",.obj [],now⟩ with
    | .error veto => .error (.threw veto)
    | .ok (.denyPlatform reason) => .error (.rejectedPlatform reason)
    | .ok .denyNotfound => .error .notfound
    | .ok .allow =>
      if seatsFull db lic input.deviceIdHash then .error .full
      else .ok (lic,deviceRow db lic.id input.deviceIdHash)

/-- Columns set when a known device is linked again. -/
def relinkedRow (input : LinkInput) (fresh : Fresh) (now : Int)
    (row : ActivationRow) : ActivationRow :=
  {row with
    activationTokenHash := some (engine.sha256 fresh.activationToken)
    lastSeenAt := now
    deviceLabel := input.deviceLabel
    state := .active
    revokedAt := none
    removedAt := none}

/-- Activate a device against a StoreKit-minted licence. -/
def issueStoreKitActivation (db : Database) (now : Int) (fresh : Fresh)
    (input : LinkInput) : Outcome×Database :=
  match admitLink engine db now input with
  | .error answer => (answer,db)
  | .ok (lic,sameDevice) =>
    match sameDevice with
    | some row =>
      commit db (updateWhere (fun r => r.id=row.id) (relinkedRow engine input fresh now)
        db.activations) (.activated row.id fresh.activationToken)
    | none =>
      commit db (db.activations ++
        [{ id := fresh.activationId,storeId := input.storeId,licenseId := lic.id,
           appKey := input.appKey, deviceIdHash := input.deviceIdHash,
           activationTokenHash := some (engine.sha256 fresh.activationToken),
           deviceLabel := input.deviceLabel, lastSeenAt := now}])
        (.activated fresh.activationId fresh.activationToken)

end

/-- Rows addressed by a remote revocation. -/
def revocationTarget (storeId licenseId activationId : String) (row : ActivationRow) : Bool :=
  decide (row.id=activationId)&&decide (row.storeId=storeId) && decide (row.licenseId=licenseId)

/-- Remote removal: tombstone the row and bump its generation. -/
def revokeDeviceRemote (now : Int) (storeId licenseId activationId : String) :
    Outcome×Database :=
  (if db.activations.any (revocationTarget storeId licenseId activationId) then .ok else .notfound,
    {db with
      activations := updateWhere (revocationTarget storeId licenseId activationId)
        (fun row => {row with
          state := .revoked, revokedAt := some now, generation := row.generation+1})
        db.activations})

/-- Rows addressed by an offline removal. -/
def removalTarget (storeId appKey deviceIdHash leaseId : String) (row : ActivationRow) : Bool :=
  decide (row.storeId=storeId)&&decide (row.appKey=appKey) &&
    decide (row.deviceIdHash=deviceIdHash)&&decide (row.leaseId=some leaseId) &&
    decide (row.state=.active)

/-- Offline local removal by the exact lease id. -/
def removeDeviceOffline (now : Int) (storeId appKey deviceIdHash leaseId : String) :
    Outcome×Database :=
  (.ok,{db with
    activations := updateWhere (removalTarget storeId appKey deviceIdHash leaseId)
      (fun row => {row with
        state := .removed, removedAt := some now, generation := row.generation+1})
      db.activations})

/-- Rows addressed by a deactivation token. -/
def deactivationTarget (engine : Engine) (appKey activationToken : String)
    (row : ActivationRow) : Bool :=
  decide (row.activationTokenHash=some (engine.sha256 activationToken)) &&
    decide (row.appKey=appKey)

/-- Free a device seat by deleting its row. -/
def deactivateDevice (engine : Engine) (db : Database) (appKey activationToken : String) :
    Outcome×Database :=
  (.ok,{db with
    activations := deleteWhere (deactivationTarget engine appKey activationToken) db.activations})

/-- Purchase addressed by a notification. -/
def notifiedPurchase (input : NotificationInput) : Option PurchaseRow :=
  db.purchases.find? fun row => row.storeId=input.storeId∧row.environment=input.environment ∧
    row.originalTransactionId=input.originalTransactionId

/-- Tombstone the live rows of a licence. -/
def cascadeRevoke (licenseId : String) (now : Int) (rows : List ActivationRow) :
    List ActivationRow :=
  updateWhere (fun row => decide (row.licenseId=licenseId)&&decide (row.state=.active))
    (fun row => {row with
      state := .revoked, revokedAt := some now, generation := row.generation+1}) rows

/-- Reinstate the revoked rows of a licence. -/
def cascadeRestore (licenseId : String) (rows : List ActivationRow) : List ActivationRow :=
  updateWhere (fun row => decide (row.licenseId=licenseId)&&decide (row.state=.revoked))
    (fun row => {row with state := .active,revokedAt := none}) rows

/-- Rewrite one licence. -/
def updateLicense (licenseId : String) (f : LicenseRow → LicenseRow) (rows : List LicenseRow) :
    List LicenseRow := updateWhere (fun lic => lic.id=licenseId) f rows

/-- Apply a verified notification to the purchase and licence it refers to. -/
def applyStoreKitNotification (now : Int) (input : NotificationInput) :
    Outcome×Database :=
  if input.action=.ignore then (.ignored,db)
  else match notifiedPurchase db input with
  | none => (.noPurchase,db)
  | some purchase =>
    let expiresAt := input.expiresDate <|> purchase.expiresAt
    let stamp (row : PurchaseRow) : PurchaseRow := {row with
      transactionId := input.transactionId <|> purchase.transactionId
      lastNotificationType := some input.notificationType
      lastNotificationUuid := some input.notificationUUID}
    let save (f : PurchaseRow → PurchaseRow) : List PurchaseRow :=
      updateWhere (fun row => row.id=purchase.id) f db.purchases
    match input.action with
    | .revoke =>
      let purchases := save fun row => {stamp row with
        status := .revoked, revocationDate := some (input.revocationDate.getD now)}
      match purchase.licenseId with
      | none => (.applied,{db with purchases := purchases})
      | some licenseId => (.applied,
          { licenses := updateLicense licenseId (fun lic => {lic with status := .revoked})
              db.licenses
            activations := cascadeRevoke licenseId now db.activations
            purchases := purchases})
    | .expire =>
      let purchases := save fun row => {stamp row with status := .expired,expiresAt := expiresAt}
      match purchase.licenseId with
      | none => (.applied,{db with purchases := purchases})
      | some licenseId => (.applied,
          {db with
            licenses := updateLicense licenseId
              (fun lic => {lic with status := .expired,expiresAt := expiresAt}) db.licenses
            purchases := purchases})
    | _ =>
      let purchases := save fun row => {stamp row with
        status := .active, expiresAt := expiresAt, revocationDate := none}
      match purchase.licenseId with
      | none => (.applied,{db with purchases := purchases})
      | some licenseId => (.applied,
          { licenses := updateLicense licenseId
              (fun lic => {lic with
                status := .active, expiresAt := expiresAt, updatesUntil := expiresAt}) db.licenses
            activations := if input.restoreActivations≠some false then
                cascadeRestore licenseId db.activations
              else db.activations
            purchases := purchases})

/-- One atomic request, with the clock and the random values it draws. -/
inductive Action where
  | issueDeviceLease (now : Int) (fresh : Fresh) (input : IssueInput)
  | renewDeviceLease (now : Int) (fresh : Fresh) (input : RenewInput)
  | activateLicenseOnDevice (now : Int) (fresh : Fresh) (input : ActivateInput)
  | issueStoreKitActivation (now : Int) (fresh : Fresh) (input : LinkInput)
  | revokeDeviceRemote (now : Int) (storeId licenseId activationId : String)
  | removeDeviceOffline (now : Int) (storeId appKey deviceIdHash leaseId : String)
  | deactivateDevice (appKey activationToken : String)
  | applyStoreKitNotification (now : Int) (input : NotificationInput)

/-- Execute one request. -/
def step (engine : Engine) (db : Database) : Action → Outcome×Database
  | .issueDeviceLease now fresh input => issueDeviceLease engine db now fresh input
  | .renewDeviceLease now fresh input => renewDeviceLease engine db now fresh input
  | .activateLicenseOnDevice now fresh input => activateLicenseOnDevice engine db now fresh input
  | .issueStoreKitActivation now fresh input => issueStoreKitActivation engine db now fresh input
  | .revokeDeviceRemote now storeId licenseId activationId =>
    revokeDeviceRemote db now storeId licenseId activationId
  | .removeDeviceOffline now storeId appKey deviceIdHash leaseId =>
    removeDeviceOffline db now storeId appKey deviceIdHash leaseId
  | .deactivateDevice appKey activationToken => deactivateDevice engine db appKey activationToken
  | .applyStoreKitNotification now input => applyStoreKitNotification db now input

/-- Digests of the few tokens and devices the sample runs use. -/
def sampleSha256 (text : String) : String :=
  if text = "token-1" then "3f08aace122ee2368432c1ca23a049bc640bafbf00fdf33a52429f38ba12dbf9"
  else if text = "token-2" then "0f6bffa9661cb5dd2f3f7b2929f33061f58a7ba7fdd689530b1a306f8ed8f3ec"
  else if text = "token-3" then "a2f2b0b588bcc84fbf4d2ac8cc086b6f84de3e00fa3c1ba11e38ac078eb03192"
  else if text = "token-4" then "0d59e266304dee1d75ac34fa01986a53b8097398a4e7e87b54b8b9732691dc98"
  else if text = "device-a" then "dd5e8641af47e250fe2bdb2b4e4d0cb910154cee5c4122d814b5b7ce6b78f3bb"
  else text

/-- The default engine: no device policy, every request allowed, no scope
claim and no signing key configured. -/
def sampleEngine : Engine where
  devicePolicyFor := fun _ => none
  authorize := fun _ _ => .ok .allow
  policyLeaseUnlimited := fun _ _ => false
  policyClaims := fun _ _ _ => none
  sha256 := sampleSha256
  entitlementToken := fun _ _ _ _ _ => none
  signLeaseEnvelope := fun _ => none

def sampleLicense : LicenseRow where
  id := "lic-1"
  storeId := "store-1"
  appKey := "app"
  licenseKey := "key-1"
  status := .active
  seats := 1
  expiresAt := none
  updatesUntil := none
  metadata := .obj []

/-- A StoreKit purchase of that licence. -/
def samplePurchase : PurchaseRow where
  id := "purchase-1"
  storeId := "store-1"
  licenseId := some "lic-1"
  environment := "Production"
  originalTransactionId := "1000"
  transactionId := none
  status := .active
  expiresAt := none
  revocationDate := none
  lastNotificationType := none
  lastNotificationUuid := none

/-- One licence, one purchase and no activation. -/
def sampleStart : Database := ⟨[sampleLicense],[],[samplePurchase]⟩

/-- A lease request for the sample licence. -/
def sampleIssue (device platform : String) : IssueInput :=
  { storeId := "store-1", appKey := "app", licenseKey := "key-1", deviceIdHash := device,
    platform := platform}

end SellRight.LicenseActivations
