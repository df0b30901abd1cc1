import SellRight.FallibleSteps
import SellRight.LicenseActivations

/-!
# What one licensing request can do to the activation table

Seven effects exhaust the eight requests: nothing, rewriting or inserting
the row of an admitted device, rotating a lease, tombstoning, reinstating
and deleting. Each effect keeps the decision that led to it, so laws about
caps, lease ids and generations split on effects and never on request code.
-/

namespace SellRight.LicenseEffects

open LicenseActivations LicenseDevicePolicy RowTable FallibleSteps
open List

/-- The lease carried by an answer. -/
def leaseOf : Outcome → Option LeaseCore
  | .leaseIssued lease _ _ => some lease.core
  | .leaseRenewed lease => some lease.core
  | _ => none

/-- Licence addressed by a notification. -/
def notifiedLicense (db : Database) (input : NotificationInput) : Option String :=
  (notifiedPurchase db input).bind PurchaseRow.licenseId

/-- Rows a request tombstones: one remote revocation, one offline removal or
the live rows under a StoreKit revoke. -/
def tombstoneTarget (db : Database) : Action → ActivationRow → Bool
  | .revokeDeviceRemote _ storeId licenseId activationId, row =>
    revocationTarget storeId licenseId activationId row
  | .removeDeviceOffline _ storeId appKey deviceIdHash leaseId, row =>
    removalTarget storeId appKey deviceIdHash leaseId row
  | .applyStoreKitNotification _ input, row =>
    decide (input.action=.revoke)&&decide (notifiedLicense db input=some row.licenseId) &&
      decide (row.state=.active)
  | _, _ => false

/-- The notification puts its licence back into service. -/
def reinstates (input : NotificationInput) : Bool :=
  decide (input.action=.restore)||decide (input.action=.renew)

/-- Rows a request reinstates: the revoked rows of a restored or renewed
licence, unless the policy keeps its tombstones. -/
def restoreTarget (db : Database) : Action → ActivationRow → Bool
  | .applyStoreKitNotification _ input, row =>
    reinstates input&&decide (input.restoreActivations≠some false) &&
      decide (notifiedLicense db input=some row.licenseId)&&decide (row.state=.revoked)
  | _, _ => false

/-- Rows a request deletes. -/
def deletionTarget (engine : Engine) : Action → ActivationRow → Bool
  | .deactivateDevice appKey activationToken, row =>
    deactivationTarget engine appKey activationToken row
  | _, _ => false

/-- How an admitted request rewrites the row of a known device: the licence,
the device, the new lease id if any, and the rewrite. -/
inductive Rewrites (engine : Engine) (db : Database) :
    Action → LicenseRow → String → Option String→(ActivationRow → ActivationRow) → Prop
  /-- A lease rewrites the live row or the tombstone of its device. -/
  | lease {now : Int} {fresh : Fresh} {input : IssueInput} {plan : LeaseAdmission}
      (hplan : admitLease engine db now input=.ok plan)
      (label : ActivationRow → Option String) (removedAt : ActivationRow → Option Int) :
      Rewrites engine db (.issueDeviceLease now fresh input) plan.lic input.deviceIdHash
        (some fresh.leaseId) fun row =>
          {leaseRow engine plan.lic plan.pool input fresh now row with
            deviceLabel := label row, removedAt := removedAt row}
  /-- A legacy activation clears the tombstone of its device. -/
  | activation {now : Int} {fresh : Fresh} {input : ActivateInput} {plan : ActivationAdmission}
      (hplan : admitActivation engine db now input=.ok plan) :
      Rewrites engine db (.activateLicenseOnDevice now fresh input) plan.lic
        (engine.sha256 input.deviceId) none (reactivatedRow engine input plan.derived fresh now)
  /-- A StoreKit link clears the tombstone of its device. -/
  | link {now : Int} {fresh : Fresh} {input : LinkInput} {lic : LicenseRow}
      {sameDevice : Option ActivationRow}
      (hplan : admitLink engine db now input=.ok (lic,sameDevice)) :
      Rewrites engine db (.issueStoreKitActivation now fresh input) lic input.deviceIdHash none
        (relinkedRow engine input fresh now)

/-- The row an admitted request inserts for an unknown device. -/
inductive Inserts (engine : Engine) (db : Database) :
    Action → LicenseRow → String → Option String → ActivationRow → Prop
  | lease {now : Int} {fresh : Fresh} {input : IssueInput} {plan : LeaseAdmission}
      (hplan : admitLease engine db now input=.ok plan) :
      Inserts engine db (.issueDeviceLease now fresh input) plan.lic input.deviceIdHash
        (some fresh.leaseId) (leaseRow engine plan.lic plan.pool input fresh now
          { id := fresh.activationId,storeId := input.storeId,licenseId := plan.lic.id,
            appKey := input.appKey, deviceIdHash := input.deviceIdHash,
            activationTokenHash := none, deviceLabel := input.deviceLabel})
  | activation {now : Int} {fresh : Fresh} {input : ActivateInput} {plan : ActivationAdmission}
      (hplan : admitActivation engine db now input=.ok plan) :
      Inserts engine db (.activateLicenseOnDevice now fresh input) plan.lic
        (engine.sha256 input.deviceId) none
        { id := fresh.activationId,storeId := input.storeId,licenseId := plan.lic.id,
          appKey := input.appKey, deviceIdHash := engine.sha256 input.deviceId,
          activationTokenHash := some (engine.sha256 fresh.activationToken),
          deviceLabel := input.deviceLabel,
          deviceClass := plan.derived.map SourceClass.deviceClass,
          pool := plan.derived.map SourceClass.pool, lastSeenAt := now}
  | link {now : Int} {fresh : Fresh} {input : LinkInput} {lic : LicenseRow}
      {sameDevice : Option ActivationRow}
      (hplan : admitLink engine db now input=.ok (lic,sameDevice)) :
      Inserts engine db (.issueStoreKitActivation now fresh input) lic input.deviceIdHash none
        { id := fresh.activationId,storeId := input.storeId,licenseId := lic.id,
          appKey := input.appKey, deviceIdHash := input.deviceIdHash,
          activationTokenHash := some (engine.sha256 fresh.activationToken),
          deviceLabel := input.deviceLabel, lastSeenAt := now}

/-- The tombstone state a request writes. -/
def tombstoneState : Action → ActivationState
  | .removeDeviceOffline _ _ _ _ _ => .removed
  | _ => .revoked

/-- What a tombstone leaves of its row: a dead state, a higher generation and
everything that identifies the device and its last lease. -/
structure Tombstoning (action : Action) (f : ActivationRow → ActivationRow) : Prop where
  state : ∀ row, (f row).state=tombstoneState action
  generation : ∀ row, (f row).generation=row.generation+1
  id : ∀ row, (f row).id=row.id
  licenseId : ∀ row, (f row).licenseId=row.licenseId
  deviceIdHash : ∀ row, (f row).deviceIdHash=row.deviceIdHash
  leaseId : ∀ row, (f row).leaseId=row.leaseId
  activationTokenHash : ∀ row, (f row).activationTokenHash=row.activationTokenHash

variable {action : Action} {f : ActivationRow → ActivationRow} {engine : Engine} {db : Database}
  {rows : List ActivationRow} {now : Int} {input : NotificationInput} {lic : LicenseRow}
  {row : ActivationRow} {licenseId device : String} {leaseId : Option String}

theorem Tombstoning.dead
    (h : Tombstoning action f) (row : ActivationRow) : (f row).state≠.active := by
  rw [h.state row]
  cases action <;> simp [tombstoneState]

/-- Everything one request can do to the activation table. -/
inductive Effect (engine : Engine) (db : Database) (action : Action) :
    Outcome → List ActivationRow → Prop
  | idle {answer : Outcome} (hanswer : leaseOf answer=none) :
      Effect engine db action answer db.activations
  | rewritten {answer : Outcome} {lic : LicenseRow} {device : String} {leaseId : Option String}
      {f : ActivationRow → ActivationRow} {row : ActivationRow}
      (hrewrite : Rewrites engine db action lic device leaseId f)
      (hrow : deviceRow db lic.id device=some row)
      (hunique : UniqueRows (updateWhere (fun r => r.id=row.id) f db.activations))
      (hlease : (leaseOf answer).map (fun core => (core.leaseId,core.generation)) =
        leaseId.map fun l => (l,row.generation)) :
      Effect engine db action answer (updateWhere (fun r => r.id=row.id) f db.activations)
  | inserted {answer : Outcome} {lic : LicenseRow} {device : String} {leaseId : Option String}
      {row : ActivationRow}
      (hinsert : Inserts engine db action lic device leaseId row)
      (hnone : deviceRow db lic.id device=none)
      (hunique : UniqueRows (db.activations++[row]))
      (hlease : (leaseOf answer).map (fun core => (core.leaseId,core.generation)) =
        leaseId.map fun l => (l,0)) :
      Effect engine db action answer (db.activations++[row])
  | renewed {answer : Outcome} {now : Int} {fresh : Fresh} {input : RenewInput}
      {row : ActivationRow} {lic : LicenseRow}
      (haction : action=.renewDeviceLease now fresh input)
      (hplan : admitRenewal engine db now input=.ok (row,lic))
      (hlease : (leaseOf answer).map (fun core => (core.leaseId,core.generation)) =
        some (fresh.leaseId,row.generation)) :
      Effect engine db action answer
        (updateWhere (fun r => r.id=row.id) (renewedRow engine lic fresh now) db.activations)
  | tombstoned {answer : Outcome} {f : ActivationRow → ActivationRow} (hf : Tombstoning action f)
      (hanswer : leaseOf answer=none) :
      Effect engine db action answer (updateWhere (tombstoneTarget db action) f db.activations)
  | restored {answer : Outcome} (hanswer : leaseOf answer=none) :
      Effect engine db action answer (updateWhere (restoreTarget db action)
        (fun row => {row with state := .active,revokedAt := none}) db.activations)
  | deleted {answer : Outcome} (hanswer : leaseOf answer=none) :
      Effect engine db action answer (deleteWhere (deletionTarget engine action) db.activations)

/-- A committed table satisfies the unique indexes; a refused one is the old
table with a thrown answer. -/
theorem commit_cases (db : Database) (rows : List ActivationRow) (answer : Outcome) :
    (UniqueRows rows∧(commit db rows answer).1=answer ∧
        (commit db rows answer).2.activations=rows) ∨
      (leaseOf (commit db rows answer).1=none∧(commit db rows answer).2=db) := by
  unfold commit
  split
  · next huni => exact .inl ⟨huni,rfl,rfl⟩
  · exact .inr ⟨rfl,rfl⟩

variable {answer : Outcome}

/-- A committed table has whatever effect its acceptance has. -/
theorem commit_effect
    (h : UniqueRows rows → Effect engine db action answer rows) :
    Effect engine db action (commit db rows answer).1 (commit db rows answer).2.activations := by
  rcases commit_cases db rows answer with ⟨huni,hans,hrs⟩|⟨hans,hdb⟩
  · rw [hans,hrs]
    exact h huni
  · rw [hdb]
    exact .idle hans

/-- Refuses without a lease, or admits with a value that has passed the checks. -/
abbrev Admitting {α : Type} (passed : α → Prop) (run : Except Outcome α) : Prop :=
  Meets (fun answer => leaseOf answer≠none) passed run

theorem refused {α : Type} {passed : α → Prop} (h : leaseOf answer=none) :
    Admitting passed (.error answer) := .error (not_not_intro h)

/-- What an admitted lease request has passed. -/
structure LeaseAdmitted (engine : Engine) (db : Database) (now : Int) (input : IssueInput)
    (plan : LeaseAdmission) : Prop where
  pool : derivePool engine.devicePolicyFor input.appKey input.platform=some plan.pool
  found : lockActiveLicense db input.storeId input.appKey input.licenseKey now=some plan.lic
  /-- A seat or slot is free, or already held. -/
  room : leaseFull engine db plan.lic plan.pool input.deviceIdHash=false
  device : plan.sameDevice=liveDeviceRow db plan.lic.id input.deviceIdHash

theorem admitLease_admitting (engine : Engine) (db : Database) (now : Int) (input : IssueInput) :
    Admitting (LeaseAdmitted engine db now input) (admitLease engine db now input) := by
  unfold admitLease
  split
  · exact refused rfl
  · next pool hpoo =>
    split
    · exact refused rfl
    split
    · exact refused rfl
    · next lic hlic =>
      split
      · exact refused rfl
      · exact refused rfl
      · exact refused rfl
      · split_ifs with hroo
        · exact refused rfl
        exact .ok ⟨hpoo,hlic,by simpa using hroo,rfl⟩

/-- An admitted lease request has passed every check. -/
theorem admitLease_ok {input : IssueInput}
    {plan : LeaseAdmission} (h : admitLease engine db now input=.ok plan) :
    LeaseAdmitted engine db now input plan :=
  (admitLease_admitting engine db now input).1 _ h

/-- What an admitted activation request has passed. -/
structure ActivationAdmitted (engine : Engine) (db : Database) (input : ActivateInput)
    (plan : ActivationAdmission) : Prop where
  found : lockLicense db input.storeId input.appKey input.licenseKey=some plan.lic
  status : plan.lic.status=.active
  device : plan.sameDevice=deviceRow db plan.lic.id (engine.sha256 input.deviceId)
  derived : plan.derived=deriveDeviceClassAndPool engine.devicePolicyFor input.appKey
    (input.activationSource.getD "desktop")
  seats : seatsFull db plan.lic (engine.sha256 input.deviceId)=false
  room : ∀ pool, nonempty (plan.derived.map SourceClass.pool)=some pool →
    poolFull engine db plan.lic input.appKey pool plan.sameDevice=false

theorem admitActivation_admitting (engine : Engine) (db : Database) (now : Int)
    (input : ActivateInput) :
    Admitting (ActivationAdmitted engine db input) (admitActivation engine db now input) := by
  unfold admitActivation
  split
  · exact refused rfl
  · next lic hlic =>
    split
    · exact refused rfl
    · next hsta =>
      split
      · exact refused rfl
      · exact refused rfl
      · exact refused rfl
      · split
        · exact refused rfl
        dsimp only
        split
        · exact refused rfl
        · next hsea =>
          split_ifs with hroo
          · exact refused rfl
          refine .ok ⟨hlic,by simpa using hsta,rfl,rfl,by simpa using hsea,?_⟩
          intro pool hpoo
          simpa [hpoo] using hroo

/-- An admitted activation request has passed every check. -/
theorem admitActivation_ok {input : ActivateInput}
    {plan : ActivationAdmission} (h : admitActivation engine db now input=.ok plan) :
    ActivationAdmitted engine db input plan :=
  (admitActivation_admitting engine db now input).1 _ h

/-- What an admitted link request has passed. -/
structure LinkAdmitted (db : Database) (input : LinkInput) (lic : LicenseRow)
    (sameDevice : Option ActivationRow) : Prop where
  found : lockLicense db input.storeId input.appKey input.licenseKey=some lic
  status : lic.status=.active
  device : sameDevice=deviceRow db lic.id input.deviceIdHash
  seats : seatsFull db lic input.deviceIdHash=false

theorem admitLink_admitting (engine : Engine) (db : Database) (now : Int) (input : LinkInput) :
    Admitting (fun plan => LinkAdmitted db input plan.1 plan.2) (admitLink engine db now input) := by
  unfold admitLink
  split
  · exact refused rfl
  · next lic hlic =>
    split
    · exact refused rfl
    · next hsta =>
      split
      · exact refused rfl
      split
      · exact refused rfl
      · exact refused rfl
      · exact refused rfl
      · split_ifs with hsea
        · exact refused rfl
        exact .ok ⟨hlic,by simpa using hsta,rfl,by simpa using hsea⟩

/-- An admitted link request has passed every check. -/
theorem admitLink_ok {input : LinkInput} {sameDevice : Option ActivationRow}
    (h : admitLink engine db now input=.ok (lic,sameDevice)) :
    LinkAdmitted db input lic sameDevice :=
  (admitLink_admitting engine db now input).1 _ h

/-- What an admitted renewal has passed. -/
structure RenewalAdmitted (db : Database) (input : RenewInput) (row : ActivationRow) : Prop where
  found : row∈db.activations
  device : row.deviceIdHash=input.deviceIdHash
  lease : row.leaseId=some input.leaseId
  state : row.state=.active

theorem admitRenewal_admitting (engine : Engine) (db : Database) (now : Int)
    (input : RenewInput) :
    Admitting (fun plan => RenewalAdmitted db input plan.1) (admitRenewal engine db now input) := by
  unfold admitRenewal
  split
  · exact refused rfl
  · next row hfin =>
    split
    · exact refused rfl
    · next hst =>
      split
      · exact refused rfl
      split
      · exact refused rfl
      split
      · exact refused rfl
      split
      · exact refused rfl
      · have hmt := List.find?_some hfin
        simp only [Bool.and_eq_true,decide_eq_true_eq] at hmt
        exact .ok ⟨mem_of_find?_eq_some hfin,hmt.1.2,hmt.2,by simpa using hst⟩
      · exact refused rfl

theorem admitRenewal_ok {input : RenewInput}
    (h : admitRenewal engine db now input=.ok (row,lic)) : RenewalAdmitted db input row :=
  (admitRenewal_admitting engine db now input).1 _ h

theorem deviceRow_spec (h : deviceRow db licenseId device=some row) :
    row∈db.activations∧row.licenseId=licenseId∧row.deviceIdHash=device := by
  have hmt := List.find?_some h
  simp only [Bool.and_eq_true,decide_eq_true_eq] at hmt
  exact ⟨mem_of_find?_eq_some h,hmt.1,hmt.2⟩

theorem liveDeviceRow_spec (h : liveDeviceRow db licenseId device=some row) :
    row∈db.activations∧row.licenseId=licenseId∧row.deviceIdHash=device∧row.state=.active := by
  have hdev := List.find?_some h
  have hmem := mem_of_find?_eq_some h
  simp only [activeRows,mem_filter,Bool.and_eq_true,decide_eq_true_eq] at hmem hdev
  exact ⟨hmem.1,hmem.2.1,hdev,hmem.2.2⟩

theorem deviceRow_eq_some (huni : UniqueRows db.activations) (hrow : row∈db.activations) :
    deviceRow db row.licenseId row.deviceIdHash=some row :=
  find_unique hrow (by simp) fun _ hot hmt => eq_of_key_eq
    (fun r : ActivationRow => (r.licenseId,r.deviceIdHash)) huni.2.1 hot hrow (by simpa using hmt)

theorem issueDeviceLease_effect (engine : Engine)
    (huni : UniqueRows db.activations) (now : Int) (fresh : Fresh) (input : IssueInput) :
    Effect engine db (.issueDeviceLease now fresh input)
      (issueDeviceLease engine db now fresh input).1
      (issueDeviceLease engine db now fresh input).2.activations := by
  unfold issueDeviceLease
  obtain ⟨hadm,hans⟩ := admitLease_admitting engine db now input
  cases hok : admitLease engine db now input with
  | error => exact .idle (not_not.mp (hans _ hok))
  | ok plan =>
  have hpl := hadm _ hok
  dsimp only
  unfold leaseWrite
  cases heq : plan.sameDevice with
  | some live =>
    obtain ⟨hmem,hlic,hdev,-⟩ := liveDeviceRow_spec (hpl.device ▸ heq)
    have hrow : deviceRow db plan.lic.id input.deviceIdHash=some live := by
      rw [← hlic,← hdev]
      exact deviceRow_eq_some huni hmem
    exact commit_effect fun hrs => .rewritten
      (.lease hok (fun row => input.deviceLabel <|> row.deviceLabel)
        ActivationRow.removedAt) hrow hrs rfl
  | none =>
    cases hrow : deviceRow db plan.lic.id input.deviceIdHash with
    | some =>
      exact commit_effect fun hrs => .rewritten
        (.lease hok (fun _ => input.deviceLabel) fun _ => none) hrow hrs rfl
    | none => exact commit_effect fun hrs => .inserted (.lease hok) hrow hrs rfl

section
variable (engine : Engine) (db : Database) (now : Int) (fresh : Fresh)

theorem renewDeviceLease_effect (input : RenewInput) : Effect engine db (.renewDeviceLease now fresh input)
      (renewDeviceLease engine db now fresh input).1
      (renewDeviceLease engine db now fresh input).2.activations := by
  unfold renewDeviceLease
  cases hok : admitRenewal engine db now input with
  | error => exact .idle (not_not.mp ((admitRenewal_admitting engine db now input).2 _ hok))
  | ok => exact .renewed rfl hok rfl

theorem activateLicenseOnDevice_effect (input : ActivateInput) :
    Effect engine db (.activateLicenseOnDevice now fresh input)
      (activateLicenseOnDevice engine db now fresh input).1
      (activateLicenseOnDevice engine db now fresh input).2.activations := by
  unfold activateLicenseOnDevice
  obtain ⟨hadm,hans⟩ := admitActivation_admitting engine db now input
  cases hok : admitActivation engine db now input with
  | error => exact .idle (not_not.mp (hans _ hok))
  | ok plan =>
  have hdev := (hadm _ hok).device
  dsimp only
  cases heq : plan.sameDevice with
  | some =>
    exact commit_effect fun hrs => .rewritten (.activation hok) (hdev ▸ heq) hrs rfl
  | none =>
    exact commit_effect fun hrs => .inserted (.activation hok) (hdev ▸ heq) hrs rfl

theorem issueStoreKitActivation_effect (input : LinkInput) :
    Effect engine db (.issueStoreKitActivation now fresh input)
      (issueStoreKitActivation engine db now fresh input).1
      (issueStoreKitActivation engine db now fresh input).2.activations := by
  unfold issueStoreKitActivation
  obtain ⟨hadm,hans⟩ := admitLink_admitting engine db now input
  cases hok : admitLink engine db now input with
  | error => exact .idle (not_not.mp (hans _ hok))
  | ok plan =>
  have hdev := (hadm _ hok).device
  dsimp only
  cases heq : plan.2 with
  | some => exact commit_effect fun hrs => .rewritten (.link hok) (hdev ▸ heq) hrs rfl
  | none => exact commit_effect fun hrs => .inserted (.link hok) (hdev ▸ heq) hrs rfl

end

/-- A revoke notification tombstones the live rows of its licence and revokes
the licence. -/
theorem applyStoreKitNotification_revoke (hact : input.action=.revoke)
    (hlic : notifiedLicense db input=some licenseId) (now : Int) :
    (applyStoreKitNotification db now input).1=.applied ∧
      (applyStoreKitNotification db now input).2.licenses =
        updateLicense licenseId (fun lic => {lic with status := .revoked}) db.licenses ∧
      (applyStoreKitNotification db now input).2.activations =
        cascadeRevoke licenseId now db.activations := by
  obtain ⟨purchase,hpur,hid⟩ := Option.bind_eq_some_iff.mp hlic
  simp [applyStoreKitNotification,hact,hpur,hid]

/-- A restore or renew puts its licence back into service and reinstates the
revoked rows unless the policy keeps them. -/
theorem applyStoreKitNotification_reinstate (hacti : reinstates input=true)
    (hlic : notifiedLicense db input=some licenseId) (now : Int) :
    (applyStoreKitNotification db now input).1=.applied ∧
      (applyStoreKitNotification db now input).2.activations =
        if input.restoreActivations≠some false then cascadeRestore licenseId db.activations
        else db.activations := by
  obtain ⟨purchase,hpur,hid⟩ := Option.bind_eq_some_iff.mp hlic
  simp only [reinstates,Bool.or_eq_true,decide_eq_true_eq] at hacti
  rcases hacti with hact|hact <;> simp [applyStoreKitNotification,hact,hpur,hid]

theorem applyStoreKitNotification_other (hot : notifiedLicense db input=none ∨
      (input.action≠.revoke∧reinstates input=false)) (now : Int) :
    leaseOf (applyStoreKitNotification db now input).1=none ∧
      (applyStoreKitNotification db now input).2.activations=db.activations := by
  unfold applyStoreKitNotification
  split
  · exact ⟨rfl,rfl⟩
  · next hign =>
    split
    · exact ⟨rfl,rfl⟩
    · next purchase hpur =>
      cases hid : purchase.licenseId with
      | none => split <;> exact ⟨rfl,rfl⟩
      | some licenseId =>
        have hso : notifiedLicense db input=some licenseId := by simp [notifiedLicense,hpur,hid]
        obtain ⟨hrev,hkp⟩ := hot.resolve_left (by simp [hso])
        cases hact : input.action with
        | revoke => exact (hrev hact).elim
        | expire => exact ⟨rfl,rfl⟩
        | ignore => exact (hign hact).elim
        | restore | renew => simp [reinstates,hact] at hkp

theorem cascadeRevoke_eq
    (hact : input.action=.revoke) (hlic : notifiedLicense db input=some licenseId) (now : Int) :
    cascadeRevoke licenseId now db.activations =
      updateWhere (tombstoneTarget db (.applyStoreKitNotification now input)) (fun row => {row with
          state := .revoked, revokedAt := some now, generation := row.generation+1})
        db.activations := by
  have htgt : (fun row : ActivationRow => decide (row.licenseId=licenseId) &&
      decide (row.state=.active)) =
      tombstoneTarget db (.applyStoreKitNotification now input) := by
    funext row
    simp [tombstoneTarget,hact,hlic,eq_comm]
  simp only [cascadeRevoke,htgt]

/-- The reinstatement rewrites exactly the targeted rows. -/
theorem cascadeRestore_eq (hact : reinstates input=true) (hkp : input.restoreActivations≠some false)
    (hlic : notifiedLicense db input=some licenseId) (now : Int) :
    cascadeRestore licenseId db.activations =
      updateWhere (restoreTarget db (.applyStoreKitNotification now input))
        (fun row => {row with state := .active,revokedAt := none}) db.activations := by
  have htgt : (fun row : ActivationRow => decide (row.licenseId=licenseId) &&
      decide (row.state=.revoked)) =
      restoreTarget db (.applyStoreKitNotification now input) := by
    funext row
    simp [restoreTarget,hact,hkp,hlic,eq_comm]
  simp only [cascadeRestore,htgt]

section
variable (engine : Engine)

theorem applyStoreKitNotification_effect (db : Database) (now : Int)
    (input : NotificationInput) : Effect engine db (.applyStoreKitNotification now input)
      (applyStoreKitNotification db now input).1
      (applyStoreKitNotification db now input).2.activations := by
  have hidl : notifiedLicense db input=none∨(input.action≠.revoke∧reinstates input=false) →
      Effect engine db (.applyStoreKitNotification now input)
        (applyStoreKitNotification db now input).1
        (applyStoreKitNotification db now input).2.activations := by
    intro hot
    obtain ⟨hans,hrs⟩ := applyStoreKitNotification_other hot now
    rw [hrs]
    exact .idle hans
  cases hlic : notifiedLicense db input with
  | none => exact hidl (.inl hlic)
  | some =>
    by_cases hrev : input.action=.revoke
    · obtain ⟨hans,-,hrs⟩ := applyStoreKitNotification_revoke hrev hlic now
      rw [hrs,hans,cascadeRevoke_eq hrev hlic now]
      refine .tombstoned ?_ rfl
      constructor <;> simp [tombstoneState]
    · cases hrei : reinstates input with
      | false => exact hidl (.inr ⟨hrev,hrei⟩)
      | true =>
        obtain ⟨hans,hrs⟩ := applyStoreKitNotification_reinstate hrei hlic now
        rw [hrs,hans]
        split
        · next hkp =>
          rw [cascadeRestore_eq hrei hkp hlic now]
          exact .restored rfl
        · exact .idle rfl

/-- Every request has one of the seven effects on a table that satisfies its
unique indexes. -/
theorem step_effect (huni : UniqueRows db.activations) (action : Action) :
    Effect engine db action (step engine db action).1 (step engine db action).2.activations := by
  cases action with
  | issueDeviceLease now fresh input => exact issueDeviceLease_effect engine huni now fresh input
  | renewDeviceLease now fresh input => exact renewDeviceLease_effect engine db now fresh input
  | activateLicenseOnDevice now fresh input =>
    exact activateLicenseOnDevice_effect engine db now fresh input
  | issueStoreKitActivation now fresh input =>
    exact issueStoreKitActivation_effect engine db now fresh input
  | revokeDeviceRemote now =>
    refine .tombstoned (f := fun row => {row with
      state := .revoked, revokedAt := some now, generation := row.generation+1}) ?_ ?_
    · constructor <;> simp [tombstoneState]
    · simp only [step,revokeDeviceRemote]
      split <;> rfl
  | removeDeviceOffline now =>
    refine .tombstoned (f := fun row => {row with
      state := .removed, removedAt := some now, generation := row.generation+1}) ?_ rfl
    constructor <;> simp [tombstoneState]
  | deactivateDevice appKey activationToken =>
    change Effect engine db (.deactivateDevice appKey activationToken) .ok
      (deleteWhere (deletionTarget engine (.deactivateDevice appKey activationToken))
        db.activations)
    exact .deleted rfl
  | applyStoreKitNotification now input =>
    exact applyStoreKitNotification_effect engine db now input

theorem step_tombstones (htgt : tombstoneTarget db action row=true) :
    ∃ f, Tombstoning action f∧(step engine db action).2.activations =
      updateWhere (tombstoneTarget db action) f db.activations := by
  cases action with
  | revokeDeviceRemote now =>
    refine ⟨fun row => {row with
      state := .revoked, revokedAt := some now, generation := row.generation+1},?_,rfl⟩
    constructor <;> simp [tombstoneState]
  | removeDeviceOffline now =>
    refine ⟨fun row => {row with
      state := .removed, removedAt := some now, generation := row.generation+1},?_,rfl⟩
    constructor <;> simp [tombstoneState]
  | applyStoreKitNotification now =>
    simp only [tombstoneTarget,Bool.and_eq_true,decide_eq_true_eq] at htgt
    obtain ⟨⟨hrev,hlic⟩,-⟩ := htgt
    refine ⟨fun row => {row with
      state := .revoked, revokedAt := some now, generation := row.generation+1},?_,?_⟩
    · constructor <;> simp [tombstoneState]
    · rw [← cascadeRevoke_eq hrev hlic now]
      exact (applyStoreKitNotification_revoke hrev hlic now).2.2
  | _ => simp [tombstoneTarget] at htgt

/-- A request that targets some row for reinstatement reinstates exactly its
targets. -/
theorem step_restores (htgt : restoreTarget db action row=true) :
    (step engine db action).2.activations=updateWhere (restoreTarget db action)
      (fun row => {row with state := .active,revokedAt := none}) db.activations := by
  cases action with
  | applyStoreKitNotification now =>
    simp only [restoreTarget,Bool.and_eq_true,decide_eq_true_eq] at htgt
    obtain ⟨⟨⟨hrei,hkp⟩,hlic⟩,-⟩ := htgt
    rw [← cascadeRestore_eq hrei hkp hlic now]
    have hrs := (applyStoreKitNotification_reinstate hrei hlic now).2
    rwa [if_pos hkp] at hrs
  | _ => simp [restoreTarget] at htgt

end

/-- A rewrite that keeps the indexed columns keeps the unique indexes. -/
theorem unique_updateWhere (huni : UniqueRows rows)
    (p : ActivationRow → Bool) (f : ActivationRow → ActivationRow)
    (hid : ∀ row, (f row).id=row.id) (hlic : ∀ row, (f row).licenseId=row.licenseId)
    (hdev : ∀ row, (f row).deviceIdHash=row.deviceIdHash)
    (htok : ∀ row, (f row).activationTokenHash=row.activationTokenHash) :
    UniqueRows (updateWhere p f rows) := by
  refine ⟨?_,?_,?_⟩
  · rw [map_updateWhere _ _ fun row _ => hid row]
    exact huni.1
  · rw [map_updateWhere _ _ fun row _ => by rw [hlic row,hdev row]]
    exact huni.2.1
  · rw [filterMap_updateWhere _ _ fun row _ => htok row]
    exact huni.2.2

theorem unique_deleteWhere (huni : UniqueRows rows)
    (p : ActivationRow → Bool) : UniqueRows (deleteWhere p rows) :=
  ⟨nodup_map_deleteWhere _ huni.1,nodup_map_deleteWhere _ huni.2.1,
    huni.2.2.sublist (filter_sublist.filterMap _)⟩

/-- Two rows of one primary key are one row. -/
theorem eq_of_id (huni : UniqueRows rows) {a b : ActivationRow}
    (ha : a∈rows) (hb : b∈rows) (hid : a.id=b.id) : a=b :=
  eq_of_key_eq ActivationRow.id huni.1 ha hb hid

theorem Effect.unique (huni : UniqueRows db.activations)
    (heff : Effect engine db action answer rows) : UniqueRows rows := by
  cases heff with
  | idle => exact huni
  | rewritten _ _ hrs => exact hrs
  | inserted _ _ hrs => exact hrs
  | renewed | restored => apply unique_updateWhere huni <;> exact fun _ => rfl
  | tombstoned hf =>
    exact unique_updateWhere huni _ _ hf.id hf.licenseId hf.deviceIdHash hf.activationTokenHash
  | deleted => exact unique_deleteWhere huni _

/-- Every request keeps the unique indexes. -/
theorem step_unique (engine : Engine) (huni : UniqueRows db.activations)
    (action : Action) : UniqueRows (step engine db action).2.activations :=
  (step_effect engine huni action).unique huni

/-- Only notifications write the licence table. -/
theorem step_licenses (engine : Engine) (db : Database) (action : Action)
    (hact : ∀ now input, action≠.applyStoreKitNotification now input) :
    (step engine db action).2.licenses=db.licenses := by
  have hcom : ∀ rows answer, (commit db rows answer).2.licenses=db.licenses := by
    intro rows answer
    unfold commit
    split <;> rfl
  cases action with
  | issueDeviceLease =>
    simp only [step,issueDeviceLease]
    split
    · rfl
    · exact hcom _ _
  | renewDeviceLease =>
    simp only [step,renewDeviceLease]
    split <;> rfl
  | activateLicenseOnDevice | issueStoreKitActivation =>
    simp only [step,activateLicenseOnDevice,issueStoreKitActivation]
    split
    · rfl
    · split <;> exact hcom _ _
  | revokeDeviceRemote | removeDeviceOffline | deactivateDevice => rfl
  | applyStoreKitNotification now input => exact (hact now input rfl).elim

/-- An admitted rewrite keeps the identity and the generation of its row,
makes it live, and sets the lease id exactly when it hands out a lease. -/
theorem Rewrites.columns
    (h : Rewrites engine db action lic device leaseId f) (row : ActivationRow) :
    (f row).id=row.id∧(f row).licenseId=row.licenseId ∧
      (f row).deviceIdHash=row.deviceIdHash∧(f row).generation=row.generation ∧
      (f row).state=.active∧(f row).leaseId=(leaseId <|> row.leaseId) := by
  cases h <;> exact ⟨rfl,rfl,rfl,rfl,rfl,rfl⟩

theorem Inserts.columns (h : Inserts engine db action lic device leaseId row) :
    row.licenseId=lic.id∧row.deviceIdHash=device∧row.generation=0 ∧
      row.state=.active∧row.leaseId=leaseId := by
  cases h <;> exact ⟨rfl,rfl,rfl,rfl,rfl⟩

variable {storeId appKey licenseKey : String}

theorem lockLicense_mem
    (h : lockLicense db storeId appKey licenseKey=some lic) : lic∈db.licenses :=
  mem_of_find?_eq_some h

theorem lockActiveLicense_spec
    (h : lockActiveLicense db storeId appKey licenseKey now=some lic) :
    lockLicense db storeId appKey licenseKey=some lic∧lic.status=.active := by
  unfold lockActiveLicense at h
  split at h
  · cases h
  · next found hfd =>
    split_ifs at h with hsta hexp
    cases h
    exact ⟨hfd,by simpa using hsta⟩

/-- The licence a request admits a device to: locked and active. -/
inductive Admits (engine : Engine) (db : Database) : Action → LicenseRow → String → Prop
  | lease {now : Int} {fresh : Fresh} {input : IssueInput} {plan : LeaseAdmission}
      (hplan : admitLease engine db now input=.ok plan) :
      Admits engine db (.issueDeviceLease now fresh input) plan.lic input.deviceIdHash
  | activation {now : Int} {fresh : Fresh} {input : ActivateInput} {plan : ActivationAdmission}
      (hplan : admitActivation engine db now input=.ok plan) :
      Admits engine db (.activateLicenseOnDevice now fresh input) plan.lic
        (engine.sha256 input.deviceId)
  | link {now : Int} {fresh : Fresh} {input : LinkInput} {lic : LicenseRow}
      {sameDevice : Option ActivationRow}
      (hplan : admitLink engine db now input=.ok (lic,sameDevice)) :
      Admits engine db (.issueStoreKitActivation now fresh input) lic input.deviceIdHash

theorem Rewrites.admits
    (h : Rewrites engine db action lic device leaseId f) : Admits engine db action lic device := by
  cases h with
  | lease hpl => exact .lease hpl
  | activation hpl => exact .activation hpl
  | link hpl => exact .link hpl

theorem Inserts.admits
    (h : Inserts engine db action lic device leaseId row) : Admits engine db action lic device := by
  cases h with
  | lease hpl => exact .lease hpl
  | activation hpl => exact .activation hpl
  | link hpl => exact .link hpl

theorem Admits.license (h : Admits engine db action lic device) :
    lic∈db.licenses∧lic.status=.active := by
  cases h with
  | lease hpl =>
    have hlk := lockActiveLicense_spec (admitLease_ok hpl).found
    exact ⟨lockLicense_mem hlk.1,hlk.2⟩
  | activation hpl =>
    have hok := admitActivation_ok hpl
    exact ⟨lockLicense_mem hok.found,hok.status⟩
  | link hpl =>
    have hok := admitLink_ok hpl
    exact ⟨lockLicense_mem hok.found,hok.status⟩

end SellRight.LicenseEffects
