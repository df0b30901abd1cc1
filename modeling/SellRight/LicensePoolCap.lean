import SellRight.LicenseSeatCap

/-!
# Pool caps under the lease and activate paths

Occupancy of a pool is counted by the stored pool of a row: its column, or
the legacy class of a row from before the column. The activate path counts
that way. The lease path counts the bare column, so legacy rows are invisible
to it; its admissions stay within the cap exactly when they make no
difference to the test.
-/

namespace SellRight.LicensePoolCap

open LicenseActivations LicenseDevicePolicy LicenseEffects List
open LicenseSeatCap RowTable RunHistory

def inPool (licenseId pool : String) (row : ActivationRow) : Bool :=
  liveOn licenseId row&&decide (storedPool row.pool row.deviceClass=some pool)

/-- Live rows of the licence in the pool. -/
def poolCount (rows : List ActivationRow) (licenseId pool : String) : ℕ :=
  rows.countP (inPool licenseId pool)

/-- Live rows of other devices of the licence in the pool. -/
def othersInPool (rows : List ActivationRow) (licenseId pool device : String) : ℕ :=
  rows.countP fun row => inPool licenseId pool row && !decide (row.deviceIdHash=device)

/-- Live rows of the licence whose bare column names the pool. -/
def columnCount (db : Database) (licenseId pool : String) : ℕ :=
  ((activeRows db licenseId).filter fun row => row.pool=some pool).length

section
variable (engine : Engine)

/-- Every capped pool of the licence is within its cap. -/
def PoolsBounded (lic : LicenseRow) (rows : List ActivationRow) : Prop :=
  ∀ pool cap, poolCap engine.devicePolicyFor lic.appKey pool=some cap →
    (poolCount rows lic.id pool : Int)≤cap

/-- An admitted lease for this licence is judged alike by the bare column and
by the stored pool: when it needs a slot and the column shows a free one, the
other devices leave a free one too. -/
def CountsLegacyRows (lic : LicenseRow) (db : Database) (now : Int) (input : IssueInput) : Prop :=
  ∀ plan, admitLease engine db now input=.ok plan→plan.lic=lic →
    ∀ cap, poolCap engine.devicePolicyFor lic.appKey plan.pool=some cap →
      (∀ row, liveDeviceRow db lic.id input.deviceIdHash=some row → row.pool≠some plan.pool) →
      (columnCount db lic.id plan.pool : Int)<cap →
      (othersInPool db.activations lic.id plan.pool input.deviceIdHash : Int)<cap

/-- The trusted source of an activation maps to a pool. -/
def SourceHasPool (input : ActivateInput) : Prop :=
  ∃ pool, nonempty ((deriveDeviceClassAndPool engine.devicePolicyFor input.appKey
    (input.activationSource.getD "desktop")).map SourceClass.pool)=some pool

/-- Requests of the pool-cap runs. -/
def PoolRun (lic : LicenseRow) (db : Database) : Action → Prop
  | .issueDeviceLease now _ input => CountsLegacyRows engine lic db now input
  | .activateLicenseOnDevice _ _ input => SourceHasPool engine input
  | .issueStoreKitActivation _ _ _ => False
  | .applyStoreKitNotification _ _ => False
  | _ => True

end

/-- The pool has room for the device: a live row of the device is there, or
the other devices leave a slot. -/
def HasRoom (db : Database) (lic : LicenseRow) (device pool : String) (cap : Option Int) : Prop :=
  (∃ row, deviceRow db lic.id device=some row∧inPool lic.id pool row=true) ∨
    ∀ c, cap=some c→(othersInPool db.activations lic.id pool device : Int)<c

variable {lic : LicenseRow} {pool : String} {row : ActivationRow}

section
variable {engine : Engine} {db : Database}

theorem poolsBounded_rewrite (huni : UniqueRows db.activations) {device : String}
    {f : ActivationRow → ActivationRow} (hrow : deviceRow db lic.id device=some row)
    (hpoo : storedPool (f row).pool (f row).deviceClass=some pool)
    (hfs : HasRoom db lic device pool (poolCap engine.devicePolicyFor lic.appKey pool))
    (hbou : PoolsBounded engine lic db.activations) :
    PoolsBounded engine lic (updateWhere (fun r => r.id=row.id) f db.activations) := by
  intro other cap hcap
  obtain ⟨hmem,hlic,hdev⟩ := deviceRow_spec hrow
  have hbef := hbou other cap hcap
  unfold poolCount at hbef ⊢
  by_cases hot : other=pool
  · subst hot
    have haft := countP_update_row ActivationRow.id (inPool lic.id other) f huni.1 hmem
    have hall := countP_ne_key ActivationRow.id (inPool lic.id other) huni.1 hmem
    rcases hfs with ⟨live,hlv,hin⟩|hroo
    · cases hrow.symm.trans hlv
      rw [if_pos hin] at haft
      split at haft <;> omega
    have hoth : db.activations.countP (fun r => inPool lic.id other r && !decide (r.id=row.id)) ≤
        othersInPool db.activations lic.id other device := by
      apply countP_mono_left
      intro r hr hcou
      simp only [Bool.and_eq_true,Bool.not_eq_true',decide_eq_false_iff_not] at hcou ⊢
      refine ⟨hcou.1,fun heq => hcou.2 ?_⟩
      have hin := hcou.1
      simp only [inPool,liveOn,Bool.and_eq_true,decide_eq_true_eq] at hin
      rw [eq_of_key_eq (fun r : ActivationRow => (r.licenseId,r.deviceIdHash)) huni.2.1 hr
        hmem (by simp [hin.1.1,hlic,heq,hdev])]
    have hfr := hroo cap hcap
    have hone : (if inPool lic.id other (f row)=true then 1 else 0)≤1 := by split <;> omega
    omega
  · have hmon : (updateWhere (fun r => r.id=row.id) f db.activations).countP
        (inPool lic.id other)≤db.activations.countP (inPool lic.id other) := by
      apply countP_updateWhere_le
      intro r hr hid hin
      have heq := eq_of_id huni hr hmem (by simpa using hid)
      subst heq
      simp only [inPool,hpoo,Option.some.injEq,Bool.and_eq_true,decide_eq_true_eq] at hin
      exact absurd hin.2.symm hot
    omega

theorem poolsBounded_insert {device : String} (hno : deviceRow db lic.id device=none)
    (hpoo : storedPool row.pool row.deviceClass=some pool)
    (hfs : HasRoom db lic device pool (poolCap engine.devicePolicyFor lic.appKey pool))
    (hbou : PoolsBounded engine lic db.activations) :
    PoolsBounded engine lic (db.activations++[row]) := by
  intro other cap hcap
  have hbef := hbou other cap hcap
  unfold poolCount at hbef ⊢
  rw [countP_append]
  by_cases hot : other=pool
  · subst hot
    have hone : List.countP (inPool lic.id other) [row]≤1 := countP_le_length
    rcases hfs with ⟨live,hlv,-⟩|hroo
    · cases hno.symm.trans hlv
    have hoth : db.activations.countP (inPool lic.id other) ≤
        othersInPool db.activations lic.id other device := by
      apply countP_mono_left
      intro r hr hin
      have hms := List.find?_eq_none.mp hno r hr
      simp only [inPool,liveOn,Bool.and_eq_true,decide_eq_true_eq] at hin
      simp only [hin.1.1,decide_true,Bool.true_and,decide_eq_true_eq] at hms
      simp [inPool,liveOn,hin,hms]
    have hfr := hroo cap hcap
    omega
  · have hz : List.countP (inPool lic.id other) [row]=0 := by
      simp only [countP_cons,countP_nil,inPool,hpoo,Option.some.injEq]
      simp [Ne.symm hot]
    omega

theorem hasRoom_lease (huni : UniqueRows db.activations)
    {now : Int} {input : IssueInput} {plan : LeaseAdmission}
    (hpl : admitLease engine db now input=.ok plan)
    (hbou : usesBoundedDevicePools engine.devicePolicyFor plan.lic.appKey plan.lic.seats
      plan.lic.metadata=true) (hlim : ∀ pool, engine.policyLeaseUnlimited plan.lic pool=false)
    (hleg : CountsLegacyRows engine plan.lic db now input) :
    HasRoom db plan.lic input.deviceIdHash plan.pool
      (poolCap engine.devicePolicyFor plan.lic.appKey plan.pool) := by
  have hok := admitLease_ok hpl
  have hne := derivePool_ne _ hok.pool
  have hpol : (engine.devicePolicyFor plan.lic.appKey).isSome=true := by
    unfold usesBoundedDevicePools at hbou
    split at hbou <;> simp_all
  by_cases hhd : ∃ row, liveDeviceRow db plan.lic.id input.deviceIdHash=some row ∧
      row.pool=some plan.pool
  · obtain ⟨row,hlv,hcol⟩ := hhd
    obtain ⟨hmem,hlic,hdev,hst⟩ := liveDeviceRow_spec hlv
    refine .inl ⟨row,?_,?_⟩
    · rw [← hlic,← hdev]
      exact deviceRow_eq_some huni hmem
    · simp [inPool,liveOn,hlic,hst,hcol,storedPool_of_ne hne]
  · refine .inr fun cap hcap => ?_
    have hmvs : ∀ row, liveDeviceRow db plan.lic.id input.deviceIdHash=some row →
        row.pool≠some plan.pool := fun row hlv hcol => hhd ⟨row,hlv,hcol⟩
    refine hleg plan hpl rfl cap hcap hmvs ?_
    have hroo := hok.room
    have hnee : ((liveDeviceRow db plan.lic.id input.deviceIdHash).isNone ||
        (liveDeviceRow db plan.lic.id input.deviceIdHash).any
          fun row => decide (row.pool≠some plan.pool))=true := by
      cases hlv : liveDeviceRow db plan.lic.id input.deviceIdHash with
      | none => rfl
      | some row => simp [hmvs row hlv]
    simp only [leaseFull,hpol,hlim,hbou,Bool.true_and,Bool.not_true,
      Bool.and_false,Bool.or_false,Bool.not_false,if_true,hcap,hnee,atCap,
      decide_eq_false_iff_not,not_le] at hroo
    exact hroo

theorem hasRoom_activation (huni : UniqueRows db.activations) {now : Int} {input : ActivateInput}
    {plan : ActivationAdmission} (hpl : admitActivation engine db now input=.ok plan)
    (hbou : usesBoundedDevicePools engine.devicePolicyFor plan.lic.appKey plan.lic.seats
      plan.lic.metadata=true) (hpoo : nonempty (plan.derived.map SourceClass.pool)=some pool) :
    HasRoom db plan.lic (engine.sha256 input.deviceId) pool
      (poolCap engine.devicePolicyFor plan.lic.appKey pool) := by
  have hok := admitActivation_ok hpl
  have happ : plan.lic.appKey=input.appKey := by
    have hmt := List.find?_some hok.found
    simp only [Bool.decide_and,Bool.and_eq_true,decide_eq_true_eq] at hmt
    exact hmt.2.1
  have hroo := hok.room pool hpoo
  rw [happ] at hbou ⊢
  by_cases hhd : ∃ row, deviceRow db plan.lic.id (engine.sha256 input.deviceId)=some row ∧
      inPool plan.lic.id pool row=true
  · exact .inl hhd
  refine .inr fun cap hcap => ?_
  have hnee : (!isLive plan.sameDevice||decide (plan.sameDevice.bind
      (fun row => storedPool row.pool row.deviceClass)≠some pool))=true := by
    rw [hok.device]
    cases hrow : deviceRow db plan.lic.id (engine.sha256 input.deviceId) with
    | none => rfl
    | some row =>
      have hlic := (deviceRow_spec hrow).2.1
      have hout : ¬ inPool plan.lic.id pool row=true := fun hin => hhd ⟨row,hrow,hin⟩
      by_cases hst : row.state=.active
      · have hmv : storedPool row.pool row.deviceClass≠some pool := by
          intro heq
          exact hout (by simp [inPool,liveOn,hlic,hst,heq])
        simp [hmv]
      · simp [isLive,hst]
  simp only [poolFull,hbou,hcap,hnee,Bool.true_and,atCap,decide_eq_false_iff_not,not_le] at hroo
  refine lt_of_le_of_lt ?_ hroo
  have hct : othersInPool db.activations plan.lic.id pool (engine.sha256 input.deviceId) ≤
      ((activeRows db plan.lic.id).filter fun row =>
        !decide (plan.sameDevice.map ActivationRow.id=some row.id) &&
          decide (storedPool row.pool row.deviceClass=some pool)).length := by
    rw [← countP_eq_length_filter,activeRows,countP_filter]
    apply countP_mono_left
    intro r hr hcou
    simp only [inPool,liveOn,Bool.and_eq_true,Bool.not_eq_true',decide_eq_true_eq,
      decide_eq_false_iff_not] at hcou ⊢
    obtain ⟨⟨⟨hlic,hst⟩,hsto⟩,hdev⟩ := hcou
    refine ⟨⟨fun heq => hdev ?_,hsto⟩,hlic,hst⟩
    rw [hok.device] at heq
    obtain ⟨row,hrow,hid⟩ := Option.map_eq_some_iff.mp heq
    obtain ⟨hmem,-,hdev'⟩ := deviceRow_spec hrow
    rw [← eq_of_id huni hmem hr hid]
    exact hdev'
  exact_mod_cast hct

end

/-- Columns that decide the pool after an admitted rewrite or insert. -/
theorem storedPool_reactivated {engine : Engine} {input : ActivateInput}
    {derived : Option SourceClass} {fresh : Fresh} {now : Int}
    (hpoo : nonempty (derived.map SourceClass.pool)=some pool) :
    storedPool (reactivatedRow engine input derived fresh now row).pool
      (reactivatedRow engine input derived fresh now row).deviceClass=some pool := by
  have hne : pool ≠ "" := by simpa using (Option.filter_eq_some_iff.mp hpoo).2
  simp only [reactivatedRow,hpoo]
  exact storedPool_of_ne hne _

section Step

variable {engine : Engine} {db : Database} {action : Action}

section
variable (huni : UniqueRows db.activations) (hks : (db.licenses.map LicenseRow.id).Nodup)
variable (hlic : lic∈db.licenses)
variable (hboun : usesBoundedDevicePools engine.devicePolicyFor lic.appKey lic.seats lic.metadata = true)
variable (hlim : ∀ pool, engine.policyLeaseUnlimited lic pool=false)
variable (hbou : PoolsBounded engine lic db.activations) (hall : PoolRun engine lic db action)
include huni hks hlic hboun hlim hbou hall

section
variable {found : LicenseRow} {device : String} {leaseId : Option String}

theorem poolsBounded_rewritten {f : ActivationRow → ActivationRow}
    (hrew : Rewrites engine db action found device leaseId f)
    (hrow : deviceRow db found.id device=some row) :
    PoolsBounded engine lic (updateWhere (fun r => r.id=row.id) f db.activations) := by
  by_cases hid : found.id=lic.id
  · have heq := eq_of_key_eq LicenseRow.id hks hrew.admits.license.1 hlic hid
    subst heq
    cases hrew with
    | lease hpl =>
      have hne := derivePool_ne _ (admitLease_ok hpl).pool
      exact poolsBounded_rewrite huni hrow (storedPool_of_ne hne _)
        (hasRoom_lease huni hpl hboun hlim hall) hbou
    | activation hpl =>
      obtain ⟨pool,hpoo⟩ := hall
      rw [← (admitActivation_ok hpl).derived] at hpoo
      exact poolsBounded_rewrite huni hrow (storedPool_reactivated hpoo)
        (hasRoom_activation huni hpl hboun hpoo) hbou
    | link => exact hall.elim
  · obtain ⟨hmem,hlice,-⟩ := deviceRow_spec hrow
    intro pool cap hcap
    have hmon : poolCount (updateWhere (fun r => r.id=row.id) f db.activations) lic.id pool ≤
        poolCount db.activations lic.id pool := by
      apply countP_updateWhere_le
      intro r hr hrid hin
      have heq := eq_of_id huni hr hmem (by simpa using hrid)
      subst heq
      simp only [inPool,liveOn,(hrew.columns r).2.1,hlice,hid,decide_false,
        Bool.false_and,Bool.false_eq_true] at hin
    have hbef := hbou pool cap hcap
    omega

theorem poolsBounded_inserted (hins : Inserts engine db action found device leaseId row)
    (hno : deviceRow db found.id device=none) :
    PoolsBounded engine lic (db.activations++[row]) := by
  by_cases hid : found.id=lic.id
  · have heq := eq_of_key_eq LicenseRow.id hks hins.admits.license.1 hlic hid
    subst heq
    cases hins with
    | lease hpl =>
      have hne := derivePool_ne _ (admitLease_ok hpl).pool
      exact poolsBounded_insert hno (storedPool_of_ne hne _)
        (hasRoom_lease huni hpl hboun hlim hall) hbou
    | activation hpl =>
      obtain ⟨pool,hpoo⟩ := hall
      rw [← (admitActivation_ok hpl).derived] at hpoo
      obtain ⟨hder,hne⟩ := Option.filter_eq_some_iff.mp hpoo
      refine poolsBounded_insert hno ?_ (hasRoom_activation huni hpl hboun hpoo) hbou
      rw [hder]
      exact storedPool_of_ne (by simpa using hne) _
    | link => exact hall.elim
  · intro pool cap hcap
    have hout : inPool lic.id pool row=false := by
      simp only [inPool,liveOn,hins.columns.1,hid,decide_false,Bool.false_and]
    have hbef := hbou pool cap hcap
    simpa [poolCount,countP_append,hout] using hbef

end

/-- One request of a pool-cap run keeps the caps. -/
theorem step_poolsBounded :
    PoolsBounded engine lic (step engine db action).2.activations := by
  have hmon : ∀ rows, (∀ pool, poolCount rows lic.id pool ≤
      poolCount db.activations lic.id pool) → PoolsBounded engine lic rows := by
    intro rows hle pool cap hcap
    have hbef := hbou pool cap hcap
    have hct := hle pool
    omega
  have heff := step_effect engine huni action
  generalize (step engine db action).2.activations=rows at heff ⊢
  cases heff with
  | idle => exact hbou
  | rewritten hrew hrow => exact poolsBounded_rewritten huni hks hlic hboun hlim hbou hall hrew hrow
  | inserted hins hno => exact poolsBounded_inserted huni hks hlic hboun hlim hbou hall hins hno
  | renewed => exact hmon _ fun pool => countP_updateWhere_le _ fun _ _ _ hin => hin
  | tombstoned hf =>
    refine hmon _ fun pool => countP_updateWhere_le _ fun row _ _ hin => ?_
    simp only [inPool,liveOn,Bool.and_eq_true,decide_eq_true_eq] at hin
    exact absurd hin.1.2 (hf.dead row)
  | restored =>
    refine hmon _ fun pool => countP_updateWhere_le _ fun row _ htgt _ => ?_
    cases action with
    | applyStoreKitNotification => exact hall.elim
    | _ => simp [restoreTarget] at htgt
  | deleted => exact hmon _ fun pool => countP_deleteWhere_le _ _ _

end

end Step

/-- Every request of a pool-cap run leaves the licences alone. -/
theorem poolRun_licenses {engine : Engine} {db : Database} {action : Action}
    (hall : PoolRun engine lic db action) : (step engine db action).2.licenses=db.licenses := by
  apply step_licenses
  rintro now input rfl
  exact hall

/-- From any bounded table, legacy rows included, every capped pool of the
licence stays within its cap in every run whose lease requests are not
misled by legacy rows. -/
theorem pool_caps_hold (engine : Engine) (start : Database) (lic : LicenseRow)
    (hlic : lic∈start.licenses) (hkeys : (start.licenses.map LicenseRow.id).Nodup)
    (hbounded : usesBoundedDevicePools engine.devicePolicyFor lic.appKey lic.seats lic.metadata =
      true) (hlimited : ∀ pool, engine.policyLeaseUnlimited lic pool=false)
    (hstart : UniqueRows start.activations) (hbound : PoolsBounded engine lic start.activations)
    {h : List (Event Database Action Outcome)} {s : Database}
    (hrun : Run (step engine) (fun _ db action => PoolRun engine lic db action) start h s) :
    PoolsBounded engine lic s.activations := by
  have hinv : UniqueRows s.activations∧s.licenses=start.licenses ∧
      PoolsBounded engine lic s.activations := by
    refine Run.state_invariant (P := fun db => UniqueRows db.activations ∧
      db.licenses=start.licenses∧PoolsBounded engine lic db.activations) hrun
      ⟨hstart,rfl,hbound⟩ ?_
    rintro _ db action ⟨huni,hlice,hpoo⟩ hall
    refine ⟨step_unique engine huni action,?_,?_⟩
    · rw [poolRun_licenses hall,hlice]
    · exact step_poolsBounded huni (hlice ▸ hkeys) (hlice ▸ hlic) hbounded hlimited hpoo hall
  exact hinv.2.2

/-- The sample engine with one computer slot per licence. -/
def samplePoolEngine : Engine := {sampleEngine with
    devicePolicyFor := fun _ => some
      {marker := "pools-v1", poolCaps := fun pool => if pool = "computer" then some 1 else none}}

/-- A live row from before the pool column. -/
def sampleLegacyRow : ActivationRow :=
  { id := "act-0", storeId := "store-1", licenseId := "lic-1", appKey := "app",
    deviceIdHash := "mac-a", activationTokenHash := none, deviceClass := some "mac"}

/-- The legacy device holds the only computer slot. -/
def sampleLegacyStart : Database := {sampleStart with activations := [sampleLegacyRow]}

/-- The legacy table is within its caps. -/
theorem sampleLegacyStart_bounded :
    PoolsBounded samplePoolEngine sampleLicense sampleLegacyStart.activations := by
  intro pool cap hcap
  have hcap' : (if pool = "computer" then some (1 : Int) else none)=some cap := hcap
  split_ifs at hcap' with hpoo
  · cases hcap'
    subst hpoo
    decide

/-- The caps at a lease for the legacy device itself. -/
theorem pool_caps_hold_legacy :
    PoolsBounded samplePoolEngine sampleLicense (step samplePoolEngine sampleLegacyStart
      (.issueDeviceLease 0 ⟨"act-1", "token-1", "lease-1"⟩
        (sampleIssue "mac-a" "macos"))).2.activations := by
  refine pool_caps_hold samplePoolEngine sampleLegacyStart sampleLicense mem_cons_self
    (by decide) rfl (fun _ => rfl) (by decide) sampleLegacyStart_bounded (.snoc _ Run.nil ?_)
  intro plan hadm _ cap hcap _ _
  cases hadm
  cases hcap
  decide

/-- A lease for a second computer is admitted beside a legacy row that holds
the only slot. -/
theorem lease_overfills_legacy_pool :
    ¬ ∀ (engine : Engine) (start : Database) (lic : LicenseRow), lic∈start.licenses →
      (start.licenses.map LicenseRow.id).Nodup →
      usesBoundedDevicePools engine.devicePolicyFor lic.appKey lic.seats lic.metadata=true →
      (∀ pool, engine.policyLeaseUnlimited lic pool=false) → UniqueRows start.activations →
      PoolsBounded engine lic start.activations →
      ∀ (h : List (Event Database Action Outcome)) (s : Database),
      Run (step engine) (fun _ _ action => match action with
        | .activateLicenseOnDevice _ _ input => SourceHasPool engine input
        | .issueStoreKitActivation _ _ _ => False
        | .applyStoreKitNotification _ _ => False
        | _ => True) start h s →
      PoolsBounded engine lic s.activations := by
  intro hall
  have hbou := hall samplePoolEngine sampleLegacyStart sampleLicense mem_cons_self
    (by decide) rfl (fun _ => rfl) (by decide) sampleLegacyStart_bounded _ _
    (.snoc (.issueDeviceLease 0 ⟨"act-1", "token-1", "lease-1"⟩ (sampleIssue "mac-b" "macos"))
      Run.nil trivial)
  exact absurd (hbou "computer" 1 rfl) (by decide)

end SellRight.LicensePoolCap
