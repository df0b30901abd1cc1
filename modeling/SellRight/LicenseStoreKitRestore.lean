import SellRight.LicenseSeatCap

/-!
# What a StoreKit restore reinstates

The cascade and the individual revocation write the same tombstone, so only
the history of a row tells them apart. A restore reinstates every revoked
row of its licence. It gives back what the cascade took exactly when no
individually revoked row is left for it to find.
-/

namespace SellRight.LicenseStoreKitRestore

open LicenseActivations LicenseEffects LicenseSeatCap List
open RowTable RunHistory

/-- Executed licensing requests. -/
abbrev LicenseEvent := Event Database Action Outcome

variable (licenseId : String)

def cascadeOn (db : Database) : Action → Prop
  | .applyStoreKitNotification _ input =>
    input.action=.revoke∧notifiedLicense db input=some licenseId
  | _ => False

/-- An applied restore or renew of the licence. -/
def reinstatesOn (db : Database) : Action → Prop
  | .applyStoreKitNotification _ input =>
    reinstates input=true∧notifiedLicense db input=some licenseId
  | _ => False

/-- The request asks for activations to stay tombstoned. -/
def keepsTombstones : Action → Prop
  | .applyStoreKitNotification _ input => input.restoreActivations=some false
  | _ => False

/-- A device admission request. -/
def isAdmission : Action → Prop
  | .issueDeviceLease _ _ _ => True
  | .activateLicenseOnDevice _ _ _ => True
  | .issueStoreKitActivation _ _ _ => True
  | _ => False

/-- An individual tombstoning request. -/
def isIndividual : Action → Prop
  | .revokeDeviceRemote _ _ _ _ => True
  | .removeDeviceOffline _ _ _ _ _ => True
  | _ => False

def isRemoteRevocation : Action → Prop
  | .revokeDeviceRemote _ _ _ _ => True
  | _ => False

section
variable (licenseId activationId : String)

def Hits (e : LicenseEvent) : Prop :=
  ∃ row∈e.before.activations, row.id=activationId∧row.licenseId=licenseId ∧
    tombstoneTarget e.before e.action row=true

def Live (db : Database) : Prop :=
  ∃ row∈db.activations, row.id=activationId∧row.licenseId=licenseId∧row.state=.active

/-- An admission made the activation live. -/
def Readmits (e : LicenseEvent) : Prop :=
  isAdmission e.action∧Live licenseId activationId e.after

/-- A cascade tombstoned the activation and nothing tombstoned it
individually since. The cascade hits live rows only, so an individual
tombstone from before it had been lifted by an admission. -/
def CascadeHeld : List LicenseEvent → Prop :=
  Since (fun c => cascadeOn licenseId c.before c.action∧Hits licenseId activationId c)
    fun e => isIndividual e.action∧Hits licenseId activationId e

/-- A remote revocation tombstoned the activation and no admission made it
live since. -/
def IndividuallyRevoked : List LicenseEvent → Prop :=
  Since (fun r => isRemoteRevocation r.action∧Hits licenseId activationId r)
    (Readmits licenseId activationId)

end

/-- How a row of the next table came about. -/
inductive Origin (db : Database) (action : Action) (row : ActivationRow) : Prop
  | kept (old : ActivationRow) (hold : old∈db.activations) (hid : old.id=row.id)
      (hlicense : old.licenseId=row.licenseId) (hstate : row.state=old.state)
      (htarget : tombstoneTarget db action old=false)
      (hrestore : restoreTarget db action old=false)
  | admitted (lic : LicenseRow) (hlic : lic∈db.licenses) (hactive : lic.status=.active)
      (hlicense : row.licenseId=lic.id) (haction : isAdmission action)
      (hstate : row.state=.active)
  | tombstoned (old : ActivationRow) (hold : old∈db.activations) (hid : old.id=row.id)
      (hlicense : old.licenseId=row.licenseId) (htarget : tombstoneTarget db action old=true)
      (hstate : row.state=tombstoneState action)
  | restored (old : ActivationRow) (hold : old∈db.activations) (hid : old.id=row.id)
      (hlicense : old.licenseId=row.licenseId) (htarget : restoreTarget db action old=true)
      (hstate : row.state=.active)

variable {db : Database} {action : Action} {engine : Engine} {row : ActivationRow}

/-- A request tombstones rows or reinstates rows, never both. -/
theorem restoreTarget_of_tombstoneTarget {a b : ActivationRow}
    (htgt : tombstoneTarget db action a=true) : restoreTarget db action b=false := by
  cases action with
  | applyStoreKitNotification =>
    simp only [tombstoneTarget,Bool.and_eq_true,decide_eq_true_eq] at htgt
    simp [restoreTarget,reinstates,htgt.1.1]
  | _ => rfl

theorem isAdmission_of_admits
    {lic : LicenseRow} {device : String} (h : Admits engine db action lic device) :
    isAdmission action := by
  cases h <;> trivial

/-- Every row of the next table has one of the four origins. -/
theorem step_origin (engine : Engine) (huni : UniqueRows db.activations)
    (hrow : row∈(step engine db action).2.activations) : Origin db action row := by
  by_cases htom : ∃ old∈db.activations, tombstoneTarget db action old=true
  · obtain ⟨first,-,hfst⟩ := htom
    obtain ⟨f,hf,hrs⟩ := step_tombstones engine hfst
    rw [hrs] at hrow
    rcases mem_updateWhere.mp hrow with ⟨old,hold,htgt,rfl⟩|⟨hold,htgt⟩
    · exact .tombstoned old hold (hf.id old).symm (hf.licenseId old).symm htgt (hf.state old)
    · exact .kept row hold rfl rfl rfl htgt (restoreTarget_of_tombstoneTarget hfst)
  · have hno : ∀ old∈db.activations, tombstoneTarget db action old=false := by
      intro old hold
      by_contra htgt
      exact htom ⟨old,hold,by simpa using htgt⟩
    by_cases hres : ∃ old∈db.activations, restoreTarget db action old=true
    · obtain ⟨first,-,hfst⟩ := hres
      rw [step_restores engine hfst] at hrow
      rcases mem_updateWhere.mp hrow with ⟨old,hold,htgt,rfl⟩|⟨hold,htgt⟩
      · exact .restored old hold rfl rfl htgt rfl
      · exact .kept row hold rfl rfl rfl (hno row hold) htgt
    · have hno' : ∀ old∈db.activations, restoreTarget db action old=false := by
        intro old hold
        by_contra htgt
        exact hres ⟨old,hold,by simpa using htgt⟩
      have hkp : row∈db.activations → Origin db action row := fun hold =>
        Origin.kept row hold rfl rfl rfl (hno row hold) (hno' row hold)
      have heff := step_effect engine huni action
      generalize (step engine db action).2.activations=rows at heff hrow
      cases heff with
      | idle => exact hkp hrow
      | rewritten hrew htgt =>
        rcases mem_updateWhere.mp hrow with ⟨old,hold,hid,rfl⟩|⟨hold,-⟩
        · obtain ⟨hmem,hlice,-⟩ := deviceRow_spec htgt
          have heq := eq_of_id huni hold hmem (by simpa using hid)
          subst heq
          have hcol := hrew.columns old
          have hlic := hrew.admits.license
          exact .admitted _ hlic.1 hlic.2 (hcol.2.1.trans hlice)
            (isAdmission_of_admits hrew.admits) hcol.2.2.2.2.1
        · exact hkp hold
      | inserted hins =>
        rcases mem_concat_iff.mp hrow with hold|rfl
        · exact hkp hold
        · have hlic := hins.admits.license
          exact .admitted _ hlic.1 hlic.2 hins.columns.1
            (isAdmission_of_admits hins.admits) hins.columns.2.2.2.1
      | renewed =>
        rcases mem_updateWhere.mp hrow with ⟨old,hold,-,rfl⟩|⟨hold,-⟩
        · exact .kept old hold rfl rfl rfl (hno old hold) (hno' old hold)
        · exact hkp hold
      | tombstoned => exact hkp (by rwa [updateWhere_eq_self hno] at hrow)
      | restored => exact hkp (by rwa [updateWhere_eq_self hno'] at hrow)
      | deleted => exact hkp (mem_deleteWhere.mp hrow).1

theorem step_survives (engine : Engine) (huni : UniqueRows db.activations)
    {old : ActivationRow} (hold : old∈db.activations)
    (hdel : deletionTarget engine action old=false) :
    ∃ row∈(step engine db action).2.activations, row.id=old.id∧row.licenseId=old.licenseId := by
  have hupd : ∀ (p : ActivationRow → Bool) (f : ActivationRow → ActivationRow),
      (∀ row, (f row).id=row.id)→(∀ row, (f row).licenseId=row.licenseId) →
      ∃ row∈updateWhere p f db.activations, row.id=old.id∧row.licenseId=old.licenseId := by
    intro p f hid hlic
    cases hp : p old with
    | true => exact ⟨f old,mem_updateWhere.mpr (.inl ⟨old,hold,hp,rfl⟩),hid old,hlic old⟩
    | false => exact ⟨old,mem_updateWhere.mpr (.inr ⟨hold,hp⟩),rfl,rfl⟩
  have heff := step_effect engine huni action
  generalize (step engine db action).2.activations=rows at heff ⊢
  cases heff with
  | idle => exact ⟨old,hold,rfl,rfl⟩
  | rewritten hrew =>
    exact hupd _ _ (fun row => (hrew.columns row).1) fun row => (hrew.columns row).2.1
  | inserted => exact ⟨old,mem_append_left _ hold,rfl,rfl⟩
  | renewed | restored => apply hupd <;> exact fun _ => rfl
  | tombstoned hf => exact hupd _ _ hf.id hf.licenseId
  | deleted => exact ⟨old,mem_deleteWhere.mpr ⟨hold,hdel⟩,rfl,rfl⟩

section

theorem live_of_tombstoneState (htgt : tombstoneTarget db action row=true) (hst : tombstoneState action=.removed) :
    row.state=.active∧isIndividual action := by
  cases action with
  | removeDeviceOffline =>
    simp only [tombstoneTarget,removalTarget,Bool.and_eq_true,decide_eq_true_eq] at htgt
    exact ⟨htgt.2,trivial⟩
  | _ => simp [tombstoneState] at hst

/-- A targeting request that leaves revoked rows is a remote revocation or a
cascade on the licence of its target. -/
theorem revoker_of_tombstoneTarget (htgt : tombstoneTarget db action row=true) (hst : tombstoneState action=.revoked) :
    isRemoteRevocation action∨cascadeOn row.licenseId db action := by
  cases action with
  | revokeDeviceRemote => exact .inl trivial
  | removeDeviceOffline => simp [tombstoneState] at hst
  | applyStoreKitNotification =>
    simp only [tombstoneTarget,Bool.and_eq_true,decide_eq_true_eq] at htgt
    exact .inr htgt.1
  | _ => simp [tombstoneTarget] at htgt

/-- A reinstated row belongs to a licence that the request restores without
keeping tombstones. -/
theorem reinstatesOn_of_restoreTarget (htgt : restoreTarget db action row=true) :
    reinstatesOn row.licenseId db action∧¬ keepsTombstones action := by
  cases action with
  | applyStoreKitNotification =>
    simp only [restoreTarget,Bool.and_eq_true,decide_eq_true_eq] at htgt
    exact ⟨⟨htgt.1.1.1,htgt.1.2⟩,htgt.1.1.2⟩
  | _ => simp [restoreTarget] at htgt

end

section
variable {licenseId : String}
variable (hrei : reinstatesOn licenseId db action)
include hrei

theorem tombstoneTarget_of_reinstatesOn (row : ActivationRow) :
    tombstoneTarget db action row=false := by
  cases action with
  | applyStoreKitNotification =>
    by_contra htgt
    simp only [tombstoneTarget,Bool.not_eq_false,Bool.and_eq_true,decide_eq_true_eq] at htgt
    simp [reinstatesOn,reinstates,htgt.1.1] at hrei
  | _ => simp [reinstatesOn] at hrei

/-- A reinstating request that keeps no tombstones targets exactly the revoked
rows of its licence. -/
theorem restoreTarget_iff (hkp : ¬ keepsTombstones action) (row : ActivationRow) :
    restoreTarget db action row=true ↔ row.licenseId=licenseId∧row.state=.revoked := by
  cases action with
  | applyStoreKitNotification =>
    simp only [reinstatesOn,keepsTombstones] at hrei hkp
    simp only [restoreTarget,hrei.1,hrei.2,hkp,ne_eq,not_false_eq_true,
      decide_true,Bool.true_and,Option.some.injEq,Bool.and_eq_true,decide_eq_true_eq]
    exact and_congr_left' eq_comm
  | _ => simp [reinstatesOn] at hrei

end

/-- A restore or renew kept the tombstone of the activation, which was not live since. -/
def KeptTombstone (id : String) : List LicenseEvent → Prop :=
  Since (fun e => reinstatesOn licenseId e.before e.action∧keepsTombstones e.action ∧
      ∃ row∈e.before.activations, row.id=id∧row.licenseId=licenseId∧row.state=.revoked)
    fun e => Live licenseId id e.after

/-- A tombstone that no restore is to lift. -/
def Spent (id : String) (h : List LicenseEvent) : Prop :=
  IndividuallyRevoked licenseId id h∨KeptTombstone licenseId id h

/-- Runs considered: no row is deleted, and a restore or renew that reinstates
activations finds no individually revoked activation of its licence, and no
tombstone that an earlier restore or renew kept. -/
def RestoresCascadeOnly (h : List LicenseEvent) (db : Database)
    (action : Action) : Prop :=
  (∀ appKey activationToken, action≠.deactivateDevice appKey activationToken) ∧
    (reinstatesOn licenseId db action→¬ keepsTombstones action →
      ∀ row∈db.activations, row.licenseId=licenseId→¬ Spent licenseId row.id h)

/-- What the history says about the tombstones of one licence. -/
structure RestoreInvariant (licenseId : String) (h : List LicenseEvent) (db : Database) :
    Prop where
  /-- Rows have distinct ids, and a licence has one row of a device. -/
  unique : UniqueRows db.activations
  /-- A revoked row was left by a cascade or by a remote revocation. -/
  revoked : ∀ row∈db.activations, row.licenseId=licenseId → row.state=.revoked →
    CascadeHeld licenseId row.id h∨IndividuallyRevoked licenseId row.id h
  /-- A row the cascade took is still there and was not removed. -/
  held : ∀ id, CascadeHeld licenseId id h →
    ∃ row∈db.activations, row.id=id∧row.licenseId=licenseId∧row.state≠.removed
  /-- An individually revoked row is still there and revoked. -/
  individual : ∀ id, IndividuallyRevoked licenseId id h →
    ∃ row∈db.activations, row.id=id∧row.licenseId=licenseId∧row.state=.revoked

section
variable {licenseId : String} {h : List LicenseEvent} (huni : UniqueRows db.activations)
  (hrow : row∈(step engine db action).2.activations) (hdd : row.state≠.active)
include huni hrow hdd

theorem not_live_after : ¬ Live licenseId row.id (step engine db action).2 := by
  rintro ⟨other,hot,hoid,-,hlv⟩
  have heq := eq_of_id (step_unique engine huni action) hot hrow hoid
  subst heq
  exact hdd hlv

theorem individuallyRevoked_append (halo : IndividuallyRevoked licenseId row.id h) :
    IndividuallyRevoked licenseId row.id (h++[perform (step engine) db action]) :=
  since_append.mpr (.inr ⟨halo,fun hre => not_live_after huni hrow hdd hre.2⟩)

theorem spent_append (hspe : Spent licenseId row.id h) :
    Spent licenseId row.id (h++[perform (step engine) db action]) :=
  hspe.imp (individuallyRevoked_append huni hrow hdd) fun hkp =>
    since_append.mpr (.inr ⟨hkp,not_live_after huni hrow hdd⟩)

end

section Step

variable {licenseId : String} {h : List LicenseEvent}

section
variable (engine : Engine) (hinv : RestoreInvariant licenseId h db)
variable (hall : RestoresCascadeOnly licenseId h db action) {old : ActivationRow}
variable (hold : old∈db.activations) (hlice : old.licenseId=licenseId)
include hinv hall hold hlice

/-- The row found under an id after a request, with its origin. -/
theorem survivor :
    ∃ row∈(step engine db action).2.activations, row.id=old.id ∧
      row.licenseId=licenseId∧Origin db action row ∧
      ∀ other∈db.activations, other.id=row.id → other=old := by
  have hdel : deletionTarget engine action old=false := by
    cases action with
    | deactivateDevice appKey token => exact absurd rfl (hall.1 appKey token)
    | _ => rfl
  obtain ⟨row,hrow,hid,hlic⟩ := step_survives engine hinv.unique hold hdel
  exact ⟨row,hrow,hid,hlic.trans hlice,step_origin engine hinv.unique hrow,
    fun _ hot hoid => eq_of_id hinv.unique hot hold (hoid.trans hid)⟩

theorem survivor_of_target (htgt : tombstoneTarget db action old=true) :
    ∃ row∈(step engine db action).2.activations, row.id=old.id ∧
      row.licenseId=licenseId∧row.state=tombstoneState action := by
  obtain ⟨row,hrow,hid,hlic,hori,hsame⟩ := survivor engine hinv hall hold hlice
  refine ⟨row,hrow,hid,hlic,?_⟩
  cases hori with
  | kept _ hot hoid _ _ hnot =>
    have heq := hsame _ hot hoid
    simp [heq,htgt] at hnot
  | admitted _ _ _ _ hact => cases action <;> simp [isAdmission,tombstoneTarget] at hact htgt
  | tombstoned _ _ _ _ _ hst => exact hst
  | restored _ _ _ _ hres => simp [restoreTarget_of_tombstoneTarget htgt] at hres

end

section
variable (hinv : RestoreInvariant licenseId h db)
include hinv

section
variable (hall : RestoresCascadeOnly licenseId h db action) {id : String}
include hall

/-- The rows the cascade took survive the request unless it takes them
individually. -/
theorem held_next (hhd : CascadeHeld licenseId id (h++[perform (step engine) db action])) :
    ∃ row∈(step engine db action).2.activations, row.id=id∧row.licenseId=licenseId ∧
      row.state≠.removed := by
  rcases since_append.mp hhd with ⟨hcas,old,hold,rfl,hlice,htgt⟩|⟨hsto,hlif⟩
  · obtain ⟨row,hrow,hid,hlic,hst⟩ := survivor_of_target engine hinv hall hold hlice htgt
    refine ⟨row,hrow,hid,hlic,?_⟩
    rw [hst]
    intro hrem
    have hind := (live_of_tombstoneState htgt hrem).2
    cases action <;> simp [perform,cascadeOn,isIndividual] at hcas hind
  · obtain ⟨old,hold,rfl,hlice,hnot⟩ := hinv.held id hsto
    obtain ⟨row,hrow,hid,hlic,hori,hsame⟩ := survivor engine hinv hall hold hlice
    refine ⟨row,hrow,hid,hlic,?_⟩
    cases hori with
    | kept _ hot hoid _ hst =>
      have heq := hsame _ hot hoid
      rw [hst,heq]
      exact hnot
    | admitted _ _ _ _ _ hst => simp [hst]
    | tombstoned other hot hoid _ htgt hst =>
      have heq := hsame _ hot hoid
      subst heq
      intro hrem
      have hind := (live_of_tombstoneState htgt (hst ▸ hrem)).2
      exact hlif ⟨hind,other,hot,rfl,hlice,htgt⟩
    | restored _ _ _ _ _ hst => simp [hst]

theorem individual_next (hrev : IndividuallyRevoked licenseId id (h++[perform (step engine) db action])) :
    ∃ row∈(step engine db action).2.activations, row.id=id∧row.licenseId=licenseId ∧
      row.state=.revoked := by
  rcases since_append.mp hrev with ⟨hrem,old,hold,rfl,hlice,htgt⟩|⟨hsto,hlif⟩
  · obtain ⟨row,hrow,hid,hlic,hst⟩ := survivor_of_target engine hinv hall hold hlice htgt
    refine ⟨row,hrow,hid,hlic,?_⟩
    rw [hst]
    cases action <;> simp [perform,isRemoteRevocation,tombstoneState] at hrem ⊢
  · obtain ⟨old,hold,rfl,hlice,hdd⟩ := hinv.individual id hsto
    obtain ⟨row,hrow,hid,hlic,hori,hsame⟩ := survivor engine hinv hall hold hlice
    refine ⟨row,hrow,hid,hlic,?_⟩
    cases hori with
    | kept _ hot hoid _ hst =>
      have heq := hsame _ hot hoid
      rw [hst,heq]
      exact hdd
    | admitted _ _ _ _ hact hst => exact absurd ⟨hact,row,hrow,hid,hlic,hst⟩ hlif
    | tombstoned _ hot hoid _ htgt hst =>
      have heq := hsame _ hot hoid
      subst heq
      rw [hst]
      cases hact : tombstoneState action with
      | active => exact absurd hact (by cases action <;> simp [tombstoneState])
      | revoked => rfl
      | removed =>
        have hlv := (live_of_tombstoneState htgt hact).1
        simp [hdd] at hlv
    | restored other hot hoid _ htgt =>
      have heq := hsame _ hot hoid
      subst heq
      obtain ⟨hrei,hkp⟩ := reinstatesOn_of_restoreTarget htgt
      rw [hlice] at hrei
      exact absurd (.inl hsto) (hall.2 hrei hkp other hot hlice)

end

theorem revoked_next
    (hrow : row∈(step engine db action).2.activations) (hlic : row.licenseId=licenseId)
    (hdd : row.state=.revoked) :
    CascadeHeld licenseId row.id (h++[perform (step engine) db action]) ∨
      IndividuallyRevoked licenseId row.id (h++[perform (step engine) db action]) := by
  cases step_origin engine hinv.unique hrow with
  | kept old hold hid hlice hst htgt =>
    rcases hinv.revoked old hold (hlice.trans hlic) (hst ▸ hdd) with hhd|halo
    · refine .inl (since_append.mpr (.inr ⟨hid ▸ hhd,?_⟩))
      rintro ⟨-,other,hot,hoid,-,hhit⟩
      have heq := eq_of_id hinv.unique hot hold (hoid.trans hid.symm)
      subst heq
      simp only [perform,htgt,Bool.false_eq_true] at hhit
    · exact .inr (individuallyRevoked_append hinv.unique hrow (by simp [hdd]) (hid ▸ halo))
  | admitted _ _ _ _ _ hst => simp [hdd] at hst
  | tombstoned old hold hid hlice htgt hst =>
    have hhits : Hits licenseId row.id (perform (step engine) db action) :=
      ⟨old,hold,hid,hlice.trans hlic,htgt⟩
    rcases revoker_of_tombstoneTarget htgt (hst.symm.trans hdd) with hrem|hcas
    · exact .inr (since_append.mpr (.inl ⟨hrem,hhits⟩))
    · rw [hlice,hlic] at hcas
      exact .inl (since_append.mpr (.inl ⟨hcas,hhits⟩))
  | restored _ _ _ _ _ hst => simp [hdd] at hst

section
variable (hall : RestoresCascadeOnly licenseId h db action)
include hall

/-- One admitted request keeps the invariant. -/
theorem RestoreInvariant.next :
    RestoreInvariant licenseId (h++[perform (step engine) db action]) (step engine db action).2 :=
  ⟨step_unique engine hinv.unique action,fun _ hrow hlic hdd => revoked_next hinv hrow hlic hdd,
    fun _ hhd => held_next hinv hall hhd,
    fun _ hrev => individual_next hinv hall hrev⟩

/-- After an applied restore or renew the live activations are those that were
live before and those the cascade took. -/
theorem live_iff_of_restore (hrei : reinstatesOn licenseId db action) (hkp : ¬ keepsTombstones action) (id : String) :
    Live licenseId id (step engine db action).2 ↔
      Live licenseId id db∨CascadeHeld licenseId id h := by
  constructor
  · rintro ⟨row,hrow,rfl,hlic,hlv⟩
    cases step_origin engine hinv.unique hrow with
    | kept old hold hid hlice hst => exact .inl ⟨old,hold,hid,hlice.trans hlic,hst ▸ hlv⟩
    | admitted _ _ _ _ hact => cases action <;> simp [isAdmission,reinstatesOn] at hact hrei
    | tombstoned old _ _ _ htgt => simp [tombstoneTarget_of_reinstatesOn hrei old] at htgt
    | restored old hold hid _ htgt =>
      right
      obtain ⟨hold',hdd⟩ := (restoreTarget_iff hrei hkp old).mp htgt
      rcases hinv.revoked old hold hold' hdd with hhd|halo
      · exact hid ▸ hhd
      · exact absurd (.inl halo) (hall.2 hrei hkp old hold hold')
  · intro hbef
    obtain ⟨old,hold,rfl,hlice,hst⟩ : ∃ old∈db.activations, old.id=id ∧
        old.licenseId=licenseId∧old.state≠.removed := by
      rcases hbef with ⟨old,hold,hid,hlice,hlv⟩|hhd
      · exact ⟨old,hold,hid,hlice,by simp [hlv]⟩
      · exact hinv.held id hhd
    obtain ⟨row,hrow,hid,hlic,hori,hsame⟩ := survivor engine hinv hall hold hlice
    refine ⟨row,hrow,hid,hlic,?_⟩
    cases hori with
    | kept other hot hoid _ heq _ hres =>
      have hequ := hsame _ hot hoid
      subst hequ
      rw [heq]
      cases hot' : other.state with
      | active => rfl
      | removed => exact absurd hot' hst
      | revoked => simp [(restoreTarget_iff hrei hkp other).mpr ⟨hlice,hot'⟩] at hres
    | admitted _ _ _ _ _ hlv => exact hlv
    | tombstoned old _ _ _ htgt => simp [tombstoneTarget_of_reinstatesOn hrei old] at htgt
    | restored _ _ _ _ _ hlv => exact hlv

end

end

end Step

section
variable (licenseId : String)

/-- A cascade on the licence that no restore or renew has followed yet. -/
def Pending : List LicenseEvent → Prop :=
  Since (fun c => cascadeOn licenseId c.before c.action)
    fun e => reinstatesOn licenseId e.before e.action

/-- The live rows fit the seats before every cascade on the licence that no
restore or renew has followed yet. -/
def WithinSeats (seats : Int) (h : List LicenseEvent) : Prop :=
  ∀ h₁ c h₂, h=h₁++c::h₂→cascadeOn licenseId c.before c.action →
    (∀ e∈h₂, ¬ reinstatesOn licenseId e.before e.action) →
    (activeCount c.before.activations licenseId : Int) ≤ seats

/-- No licence row of that id is active. -/
def Inactive (db : Database) : Prop :=
  ∀ lic∈db.licenses, lic.id=licenseId→lic.status≠.active

/-- The row is live or would be live again after a restore. -/
def Recoverable (h : List LicenseEvent) (row : ActivationRow) : Prop :=
  row.state=.active∨(row.state=.revoked∧¬ Spent licenseId row.id h)

end

/-- Between a cascade and its restore the licence admits nothing, so what a
restore can bring back is bounded by what was live before the cascade. -/
structure SeatInvariant (licenseId : String) (seats : Int) (h : List LicenseEvent)
    (db : Database) : Prop where
  /-- Outside a cascade the revoked rows are spent. -/
  settled : ¬ Pending licenseId h→∀ row∈db.activations, row.licenseId=licenseId →
    row.state=.revoked → Spent licenseId row.id h
  /-- Under a cascade the recoverable rows fit the seats. -/
  pending : Pending licenseId h → WithinSeats licenseId seats h →
    Inactive licenseId db∧∃ kept : List String, (kept.length : Int) ≤ seats ∧
      ∀ row∈db.activations, row.licenseId=licenseId → Recoverable licenseId h row → row.id∈kept

/-- A licence of the next table was there before, is not active, or was put
back into service by this request. -/
theorem license_origin (engine : Engine) (db : Database) (action : Action) {lic : LicenseRow}
    (hlic : lic∈(step engine db action).2.licenses) :
    lic∈db.licenses∨lic.status≠.active∨reinstatesOn lic.id db action := by
  cases action with
  | applyStoreKitNotification _ input =>
    simp only [step,applyStoreKitNotification] at hlic
    split at hlic
    · exact .inl hlic
    · next hign =>
      split at hlic
      · exact .inl hlic
      · next purchase hpur =>
        cases hid : purchase.licenseId with
        | none =>
          rw [hid] at hlic
          split at hlic <;> exact .inl hlic
        | some licenseId =>
          rw [hid] at hlic
          have hnot : notifiedLicense db input=some licenseId := by simp [notifiedLicense,hpur,hid]
          split at hlic
          iterate 2
            · rcases mem_updateWhere.mp hlic with ⟨old,-,-,rfl⟩|⟨hold,-⟩
              · exact .inr (.inl (by simp))
              · exact .inl hold
          · next hrev hexp =>
            rcases mem_updateWhere.mp hlic with ⟨old,-,hmt,rfl⟩|⟨hold,-⟩
            · refine .inr (.inr ⟨?_,?_⟩)
              · cases hact : input.action with
                | revoke => exact (hrev hact).elim
                | expire => exact (hexp hact).elim
                | ignore => exact (hign hact).elim
                | restore | renew => simp [reinstates,hact]
              · simpa [hnot,eq_comm] using hmt
            · exact .inl hold
  | _ =>
    rw [step_licenses engine db _ (by simp)] at hlic
    exact .inl hlic

section Seats

variable {licenseId : String} {seats : Int} {h : List LicenseEvent}

/-- A licence out of service stays so until it is restored or renewed. -/
theorem inactive_next (engine : Engine) (hina : Inactive licenseId db)
    (hnot : ¬ reinstatesOn licenseId db action) : Inactive licenseId (step engine db action).2 := by
  intro lic hlic hid
  rcases license_origin engine db action hlic with hold|hsta|hrei
  · exact hina lic hold hid
  · exact hsta
  · exact absurd (hid ▸ hrei) hnot

/-- A cascade takes its licence out of service. -/
theorem inactive_of_cascade (engine : Engine) (hcas : cascadeOn licenseId db action) :
    Inactive licenseId (step engine db action).2 := by
  cases action with
  | applyStoreKitNotification now =>
    intro lic hlic hid
    rw [step,(applyStoreKitNotification_revoke hcas.1 hcas.2 now).2.1] at hlic
    rcases mem_updateWhere.mp hlic with ⟨old,-,-,rfl⟩|⟨-,hms⟩
    · simp
    · simp [hid] at hms
  | _ => exact hcas.elim

theorem recoverable_before (huni : UniqueRows db.activations)
    (hnot : ¬ reinstatesOn licenseId db action) (hclo : isAdmission action → Inactive licenseId db)
    (hrow : row∈(step engine db action).2.activations) (hlic : row.licenseId=licenseId)
    (hrec : Recoverable licenseId (h++[perform (step engine) db action]) row) :
    ∃ old∈db.activations, old.id=row.id∧old.licenseId=licenseId∧Recoverable licenseId h old := by
  cases step_origin engine huni hrow with
  | kept old hold hid hlice hst =>
    refine ⟨old,hold,hid,hlice.trans hlic,?_⟩
    rcases hrec with hlv|⟨hdd,halo⟩
    · exact .inl (hst ▸ hlv)
    · exact .inr ⟨hst ▸ hdd,fun hbef => halo
        (spent_append huni hrow (by simp [hdd]) (hid ▸ hbef))⟩
  | admitted lic hmem hacti hlice hact =>
    exact absurd hacti (hclo hact lic hmem (hlice.symm.trans hlic))
  | tombstoned old hold hid hlice htgt hst =>
    refine ⟨old,hold,hid,hlice.trans hlic,.inl ?_⟩
    have hnotl : row.state≠.active := by
      rw [hst]
      cases action <;> simp [tombstoneState]
    obtain ⟨hdd,halo⟩ := hrec.resolve_left hnotl
    rcases revoker_of_tombstoneTarget htgt (hst.symm.trans hdd) with hrem|hcas
    · exact absurd (.inl (since_append.mpr (.inl ⟨hrem,old,hold,hid,hlice.trans hlic,htgt⟩))) halo
    · cases action with
      | applyStoreKitNotification =>
        simp only [tombstoneTarget,Bool.and_eq_true,decide_eq_true_eq] at htgt
        exact htgt.2
      | _ => exact hcas.elim
  | restored _ _ _ hlice htgt =>
    have hrei := (reinstatesOn_of_restoreTarget htgt).1
    rw [hlice,hlic] at hrei
    exact absurd hrei hnot

theorem not_reinstatesOn_of_cascade (hcas : cascadeOn licenseId db action) :
    ¬ reinstatesOn licenseId db action := by
  cases action with
  | applyStoreKitNotification => simp [reinstatesOn,reinstates,hcas.1]
  | _ => exact hcas.elim

section
variable (huni : UniqueRows db.activations)
variable (hinv : SeatInvariant licenseId seats h db)
include huni hinv

/-- Outside a cascade a request leaves no revoked rows but spent ones. -/
theorem settled_next (hpen : ¬ Pending licenseId (h++[perform (step engine) db action]))
    (hrow : row∈(step engine db action).2.activations)
    (hlic : row.licenseId=licenseId) (hdd : row.state=.revoked) :
    Spent licenseId row.id (h++[perform (step engine) db action]) := by
  have hnot : row.state≠.active := by simp [hdd]
  cases step_origin engine huni hrow with
  | kept old hold hid hlice hst _ hres =>
    have hold' := hlice.trans hlic
    have hrev := hst.symm.trans hdd
    by_cases hrei : reinstatesOn licenseId db action
    · by_cases hkp : keepsTombstones action
      · exact .inr (since_append.mpr (.inl ⟨hrei,hkp,old,hold,hid,hold',hrev⟩))
      · simp [(restoreTarget_iff hrei hkp old).mpr ⟨hold',hrev⟩] at hres
    · have hbef : ¬ Pending licenseId h := fun hsta => hpen (since_append.mpr (.inr ⟨hsta,hrei⟩))
      have hspe := hinv.settled hbef old hold hold' hrev
      exact spent_append huni hrow hnot (hid ▸ hspe)
  | admitted _ _ _ _ _ hst => exact absurd hst hnot
  | tombstoned old hold hid hlice htgt hst =>
    have hold' := hlice.trans hlic
    rcases revoker_of_tombstoneTarget htgt (hst.symm.trans hdd) with hrem|hcas
    · exact .inl (since_append.mpr (.inl ⟨hrem,old,hold,hid,hold',htgt⟩))
    · rw [hold'] at hcas
      exact (hpen (since_append.mpr (.inl hcas))).elim
  | restored _ _ _ _ _ hst => exact absurd hst hnot

/-- Under a cascade the recoverable rows keep fitting the seats. -/
theorem pending_next (hpen : Pending licenseId (h++[perform (step engine) db action]))
    (hwit : WithinSeats licenseId seats (h++[perform (step engine) db action])) :
    Inactive licenseId (step engine db action).2∧∃ kept : List String,
      (kept.length : Int) ≤ seats∧∀ row∈(step engine db action).2.activations,
        row.licenseId=licenseId →
        Recoverable licenseId (h++[perform (step engine) db action]) row → row.id∈kept := by
  by_cases hsta : Pending licenseId h
  · have hnot : ¬ reinstatesOn licenseId db action := by
      rcases since_append.mp hpen with hcas|⟨-,hnot⟩
      · exact not_reinstatesOn_of_cascade hcas
      · exact hnot
    have hwit' : WithinSeats licenseId seats h := by
      rintro h₁ c h₂ rfl hcas hq
      refine hwit h₁ c (h₂++[perform (step engine) db action]) (by simp) hcas ?_
      intro e he
      rcases mem_concat_iff.mp he with hold|rfl
      · exact hq e hold
      · exact hnot
    obtain ⟨hina,kept,hlen,hmem⟩ := hinv.pending hsta hwit'
    refine ⟨inactive_next engine hina hnot,kept,hlen,?_⟩
    intro row hrow hlic hrec
    obtain ⟨old,hold,hid,hlice,hbef⟩ :=
      recoverable_before huni hnot (fun _ => hina) hrow hlic hrec
    exact hid ▸ hmem old hold hlice hbef
  · have hcas : cascadeOn licenseId db action := by
      rcases since_append.mp hpen with hcas|⟨hbef,-⟩
      · exact hcas
      · exact absurd hbef hsta
    have hlen := hwit h (perform (step engine) db action) [] rfl hcas (by simp)
    refine ⟨inactive_of_cascade engine hcas,
      (db.activations.filter (liveOn licenseId)).map ActivationRow.id,?_,?_⟩
    · rw [length_map,← countP_eq_length_filter]
      exact hlen
    intro row hrow hlic hrec
    have hnoa : isAdmission action → Inactive licenseId db := by
      intro hadm
      cases action <;> simp [isAdmission,cascadeOn] at hadm hcas
    obtain ⟨old,hold,hid,hlice,hbef⟩ := recoverable_before huni
      (not_reinstatesOn_of_cascade hcas) hnoa hrow hlic hrec
    rcases hbef with hlv|⟨hrev,halo⟩
    · refine mem_map.mpr ⟨old,mem_filter.mpr ⟨hold,?_⟩,hid⟩
      simp [liveOn,hlice,hlv]
    · exact absurd (hinv.settled hsta old hold hlice hrev) halo

theorem SeatInvariant.next :
    SeatInvariant licenseId seats (h++[perform (step engine) db action])
      (step engine db action).2 :=
  ⟨fun hpen _ hrow hlic hdd => settled_next huni hinv hpen hrow hlic hdd,pending_next huni hinv⟩

end

/-- Distinct ids drawn from a short list are few. -/
theorem activeCount_le_of_kept {rows : List ActivationRow} (huni : UniqueRows rows)
    {kept : List String}
    (hkp : ∀ row∈rows, row.licenseId=licenseId → row.state=.active → row.id∈kept) :
    activeCount rows licenseId≤kept.length := by
  have hsub : (rows.filter (liveOn licenseId)).map ActivationRow.id |>.Nodup :=
    huni.1.sublist (filter_sublist.map _)
  have hsubs : (rows.filter (liveOn licenseId)).map ActivationRow.id ⊆ kept := by
    intro id hid
    obtain ⟨row,hrow,rfl⟩ := mem_map.mp hid
    obtain ⟨hmem,hlv⟩ := mem_filter.mp hrow
    simp only [liveOn,Bool.and_eq_true,decide_eq_true_eq] at hlv
    exact hkp row hmem hlv.1 hlv.2
  have hlen := (hsub.subperm hsubs).length_le
  rwa [length_map,← countP_eq_length_filter] at hlen

/-- After a restore that follows a cascade the live rows fit the seats. -/
theorem activeCount_of_restore (hinv : RestoreInvariant licenseId h db)
    (hsea : SeatInvariant licenseId seats h db) (hall : RestoresCascadeOnly licenseId h db action)
    (hrei : reinstatesOn licenseId db action) (hkp : ¬ keepsTombstones action)
    (hpen : Pending licenseId h) (hwit : WithinSeats licenseId seats h) :
    (activeCount (step engine db action).2.activations licenseId : Int) ≤ seats := by
  have hspe := hall.2 hrei hkp
  obtain ⟨-,kept,hlen,hmem⟩ := hsea.pending hpen hwit
  have hlv : ∀ row∈(step engine db action).2.activations, row.licenseId=licenseId →
      row.state=.active → row.id∈kept := by
    intro row hrow hlic hst
    have hrow' : Live licenseId row.id (step engine db action).2 := ⟨row,hrow,rfl,hlic,hst⟩
    rcases (live_iff_of_restore hinv hall hrei hkp row.id).mp hrow' with
      ⟨old,hold,hid,hlice,hold'⟩|hhd
    · exact hid ▸ hmem old hold hlice (.inl hold')
    obtain ⟨old,hold,hid,hlice,hnot⟩ := hinv.held row.id hhd
    refine hid ▸ hmem old hold hlice ?_
    cases hold' : old.state with
    | active => exact .inl hold'
    | removed => exact absurd hold' hnot
    | revoked => exact .inr ⟨hold',hspe old hold hlice⟩
  have hct := activeCount_le_of_kept (step_unique engine hinv.unique action) hlv
  omega

end Seats

/-- The law of a restore at one event of a history: individually revoked
activations stay revoked, an applied restore or renew gives back exactly what
a cascade took, and it stays within seats that were kept before the cascade. -/
structure RestoreLaw (licenseId : String) (past : List LicenseEvent) (e : LicenseEvent) :
    Prop where
  /-- Individually revoked activations are revoked until admitted again. -/
  stays : ∀ id, IndividuallyRevoked licenseId id past →
    ∃ row∈e.before.activations, row.id=id∧row.licenseId=licenseId∧row.state=.revoked
  /-- A restore reinstates exactly what a cascade took. -/
  reinstates : reinstatesOn licenseId e.before e.action→¬ keepsTombstones e.action →
    ∀ id, Live licenseId id e.after ↔ Live licenseId id e.before∨CascadeHeld licenseId id past
  /-- Seats kept before the cascade are kept after the restore. -/
  seats : ∀ seats : Int, 0<seats → reinstatesOn licenseId e.before e.action →
    ¬ keepsTombstones e.action → Pending licenseId past → WithinSeats licenseId seats past →
    (activeCount e.after.activations licenseId : Int) ≤ seats

/-- Every run from a table without revoked rows of the licence, in which a
reinstating notification never meets an individually revoked activation or a
tombstone kept by an earlier one, obeys the restore law at every event. -/
theorem restore_reinstates_cascade (engine : Engine) (start : Database) (licenseId : String)
    (hstart : UniqueRows start.activations)
    (hclean : ∀ row∈start.activations, row.licenseId=licenseId → row.state≠.revoked)
    {past later : List LicenseEvent} {e : LicenseEvent} {s : Database}
    (hrun : Run (step engine) (RestoresCascadeOnly licenseId) start (past++e::later) s) :
    RestoreLaw licenseId past e := by
  obtain ⟨hpa,hall,heve⟩ := Run.split hrun
  have hinv : RestoreInvariant licenseId past e.before := by
    refine Run.invariant (P := RestoreInvariant licenseId) hpa ⟨hstart,?_,?_,?_⟩
      fun _ _ _ hinv hall => hinv.next hall
    · exact fun row hrow hlic hdd => absurd hdd (hclean row hrow hlic)
    · exact fun _ hhd => absurd hhd not_since_nil
    · exact fun _ halo => absurd halo not_since_nil
  have hsea : ∀ seats, SeatInvariant licenseId seats past e.before := by
    intro seats
    have hbo : UniqueRows e.before.activations∧SeatInvariant licenseId seats past e.before := by
      refine Run.invariant (P := fun h db => UniqueRows db.activations ∧
        SeatInvariant licenseId seats h db) hpa ⟨hstart,?_,?_⟩
        fun _ _ action hbo _ => ⟨step_unique engine hbo.1 action,hbo.2.next hbo.1⟩
      · exact fun _ row hrow hlic hdd => absurd hdd (hclean row hrow hlic)
      · exact fun hpen => absurd hpen not_since_nil
    exact hbo.2
  refine ⟨hinv.individual,?_,?_⟩
  · intro hrei hkp
    rw [heve]
    exact live_iff_of_restore hinv hall hrei hkp
  · intro seats _ hrei hkp hpen hwit
    rw [heve]
    exact activeCount_of_restore hinv (hsea seats) hall hrei hkp hpen hwit

/-- A notification about the sample purchase. -/
def sampleNotification (now : Int) (action : NotificationAction) : Action :=
  .applyStoreKitNotification now
    { storeId := "store-1", action := action, environment := "Production",
      originalTransactionId := "1000"}

/-- A device takes the seat of the sample licence. -/
def sampleSeat : LicenseEvent := perform (step sampleEngine) sampleStart
    (.issueDeviceLease 0 ⟨"act-1", "token-1", "lease-1"⟩ (sampleIssue "mac-a" "macos"))

/-- The purchase is refunded. -/
def sampleCascade : LicenseEvent :=
  perform (step sampleEngine) sampleSeat.after (sampleNotification 1 .revoke)

/-- The refund is reversed. -/
def sampleReversal : LicenseEvent :=
  perform (step sampleEngine) sampleCascade.after (sampleNotification 2 .restore)

/-- The law at a refund and its reversal. -/
theorem restore_reinstates_cascade_reversal :
    RestoreLaw "lic-1" [sampleSeat,sampleCascade] sampleReversal ∧
      Live "lic-1" "act-1" sampleReversal.after := by
  have hq : ∀ h db action, ¬ reinstatesOn "lic-1" db action →
      (∀ appKey token, action≠.deactivateDevice appKey token) →
      RestoresCascadeOnly "lic-1" h db action :=
    fun _ _ _ hnot hact => ⟨hact,fun hrei => absurd hrei hnot⟩
  have hlt : RestoresCascadeOnly "lic-1" [sampleSeat,sampleCascade] sampleCascade.after
      (sampleNotification 2 .restore) := by
    refine ⟨by simp [sampleNotification],fun _ _ row _ _ hspe => ?_⟩
    rcases hspe with ⟨h₁,r,h₂,heq,⟨hrem,-⟩,-⟩|⟨h₁,r,h₂,heq,⟨hrei,-⟩,-⟩ <;>
      have hmem : r∈[sampleSeat,sampleCascade] := by simp [heq]
    all_goals simp only [mem_cons,not_mem_nil,or_false] at hmem
    · rcases hmem with rfl|rfl <;> exact hrem
    · rcases hmem with rfl|rfl
      · exact hrei.elim
      · exact absurd hrei.1 (by decide)
  have hrun : Run (step sampleEngine) (RestoresCascadeOnly "lic-1") sampleStart
      ([sampleSeat,sampleCascade]++sampleReversal::[]) _ :=
    Run.snoc _ (.snoc _ (.snoc _ Run.nil (hq _ _ _ id (by simp)))
      (hq _ _ _ (fun hrei => absurd hrei.1 (by decide)) (by simp [sampleNotification]))) hlt
  exact ⟨restore_reinstates_cascade sampleEngine sampleStart "lic-1" (by decide)
    (by simp [sampleStart]) hrun,_,mem_cons_self,rfl,rfl,rfl⟩

def sampleIndividual : LicenseEvent :=
  perform (step sampleEngine) sampleSeat.after (.revokeDeviceRemote 1 "store-1" "lic-1" "act-1")

/-- The next billing cycle of the purchase. -/
def sampleBilling : LicenseEvent :=
  perform (step sampleEngine) sampleIndividual.after (sampleNotification 2 .renew)

/-- An ordinary renewal makes an individually revoked device live again. -/
theorem renew_reinstates_individually_revoked :
    ¬ ∀ (engine : Engine) (start : Database) (licenseId : String), UniqueRows start.activations →
      (∀ row∈start.activations, row.licenseId=licenseId → row.state≠.revoked) →
      ∀ (past later : List LicenseEvent) (e : LicenseEvent) (s : Database),
      Run (step engine) (fun _ _ action => ∀ appKey token, action≠.deactivateDevice appKey token)
        start (past++e::later) s → RestoreLaw licenseId past e := by
  intro hall
  have hrun : Run (step sampleEngine)
      (fun _ _ action => ∀ appKey token, action≠.deactivateDevice appKey token) sampleStart
      ([sampleSeat,sampleIndividual]++sampleBilling::[]) _ :=
    Run.snoc _ (Run.snoc _ (Run.snoc _ Run.nil (by simp)) (by simp)) (by simp [sampleNotification])
  have hlaw := hall sampleEngine sampleStart "lic-1" (by decide) (by simp [sampleStart]) _ _ _ _ hrun
  have hlv : Live "lic-1" "act-1" sampleBilling.after := ⟨_,mem_cons_self,rfl,rfl,rfl⟩
  have hkp : ¬ keepsTombstones sampleBilling.action :=
    show ¬ (none : Option Bool)=some false by decide
  rcases (hlaw.reinstates ⟨rfl,rfl⟩ hkp "act-1").mp hlv with
    ⟨row,hrow,-,-,hst⟩|⟨h₁,c,h₂,heq,⟨hcas,-⟩,-⟩
  · cases mem_singleton.mp hrow
    exact absurd hst (by decide)
  · have hmem : c∈[sampleSeat,sampleIndividual] := by simp [heq]
    simp only [mem_cons,not_mem_nil,or_false] at hmem
    rcases hmem with rfl|rfl <;> exact hcas

end SellRight.LicenseStoreKitRestore
