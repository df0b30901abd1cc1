import SellRight.LicenseEffects
import SellRight.RunHistory

/-!
# Flat seat cap over all admission paths

For an app without a registered device policy the flat seat count is the
only cap. Three admission paths test it with their own reading of the same
device; a live row holds its seat, a tombstone does not. Notifications are
outside these runs: they rewrite licences as well as rows.
-/

namespace SellRight.LicenseSeatCap

open LicenseActivations LicenseDevicePolicy LicenseEffects List
open RowTable RunHistory

def liveOn (licenseId : String) (row : ActivationRow) : Bool :=
  decide (row.licenseId=licenseId)&&decide (row.state=.active)

/-- Number of live rows of a licence. -/
def activeCount (rows : List ActivationRow) (licenseId : String) : ℕ :=
  rows.countP (liveOn licenseId)

/-- The admission paths measure exactly the live rows of the licence. -/
theorem length_activeRows (db : Database) (licenseId : String) :
    (activeRows db licenseId).length=activeCount db.activations licenseId :=
  (countP_eq_length_filter).symm

variable {db : Database} {device : String} {row : ActivationRow} {engine : Engine}
  {lic : LicenseRow}

theorem isLive_of_liveDeviceRow (huni : UniqueRows db.activations) {licenseId : String}
    (h : liveDeviceRow db licenseId device=some row) :
    isLive (deviceRow db licenseId device)=true := by
  obtain ⟨hmem,hlic,hdev,hst⟩ := liveDeviceRow_spec h
  rw [← hlic,← hdev,deviceRow_eq_some huni hmem]
  simp [isLive,hst]

/-- Without a policy, an admitted lease either re-admits a live device or
finds a free seat. -/
theorem leaseFull_flat (huni : UniqueRows db.activations) {pool : String}
    (hpol : engine.devicePolicyFor lic.appKey=none)
    (hlim : engine.policyLeaseUnlimited lic pool=false) (hsea : 0<lic.seats)
    (hroo : leaseFull engine db lic pool device=false) : isLive (deviceRow db lic.id device)=true ∨
      (activeCount db.activations lic.id : Int)<lic.seats := by
  cases hlv : liveDeviceRow db lic.id device with
  | some => exact .inl (isLive_of_liveDeviceRow huni hlv)
  | none =>
    right
    have hpos : decide (lic.seats≤0)=false := by simp [hsea]
    simp only [leaseFull,hlv,hpol,hlim,hpos,atCap,length_activeRows,
      Option.isNone_none,Option.isSome_none,Bool.false_and,Bool.or_false,Bool.true_and,
      Bool.not_false,Bool.false_eq_true,if_false,decide_eq_false_iff_not,not_le] at hroo
    exact hroo

/-- The shared flat test admits a live device or finds a free seat. -/
theorem seatsFull_flat (hsea : 0<lic.seats) (hroo : seatsFull db lic device=false) :
    isLive (deviceRow db lic.id device)=true ∨
      (activeCount db.activations lic.id : Int)<lic.seats := by
  cases hlv : isLive (deviceRow db lic.id device) with
  | true => exact .inl rfl
  | false =>
    right
    simp only [seatsFull,hlv,hsea,length_activeRows,decide_true,Bool.not_false,
      Bool.true_and,decide_eq_false_iff_not,not_le] at hroo
    exact hroo

theorem Admits.seat (huni : UniqueRows db.activations) {action : Action}
    (h : Admits engine db action lic device) (hpol : engine.devicePolicyFor lic.appKey=none)
    (hlim : ∀ pool, engine.policyLeaseUnlimited lic pool=false) (hsea : 0<lic.seats) :
    isLive (deviceRow db lic.id device)=true ∨
      (activeCount db.activations lic.id : Int)<lic.seats := by
  cases h with
  | lease hpl => exact leaseFull_flat huni hpol (hlim _) hsea (admitLease_ok hpl).room
  | activation hpl => exact seatsFull_flat hsea (admitActivation_ok hpl).seats
  | link hpl => exact seatsFull_flat hsea (admitLink_ok hpl).seats

variable {rows : List ActivationRow}

theorem activeCount_rewrite_other (huni : UniqueRows rows)
    (hrow : row∈rows) {f : ActivationRow → ActivationRow}
    (hf : (f row).licenseId=row.licenseId) {licenseId : String} (hot : row.licenseId≠licenseId) :
    activeCount (updateWhere (fun r => r.id=row.id) f rows) licenseId ≤
      activeCount rows licenseId := by
  apply countP_updateWhere_le
  intro r hr hid hlv
  have heq := eq_of_id huni hr hrow (by simpa using hid)
  subst heq
  simp only [liveOn,hf,hot,decide_false,Bool.false_and,Bool.false_eq_true] at hlv

/-- Rewriting the row of an admitted device stays within the seats. -/
theorem activeCount_rewrite_seat (huni : UniqueRows rows)
    (hrow : row∈rows) (f : ActivationRow → ActivationRow) {seats : Int}
    (hbou : (activeCount rows row.licenseId : Int) ≤ seats)
    (hsea : row.state=.active∨(activeCount rows row.licenseId : Int)<seats) :
    (activeCount (updateWhere (fun r => r.id=row.id) f rows) row.licenseId : Int) ≤ seats := by
  have haft := countP_update_row ActivationRow.id (liveOn row.licenseId) f huni.1 hrow
  unfold activeCount at hbou hsea ⊢
  rcases hsea with hst|hfr
  · have hlv : liveOn row.licenseId row=true := by simp [liveOn,hst]
    rw [if_pos hlv] at haft
    split at haft <;> omega
  · split at haft <;> split at haft <;> omega

/-- One request other than a notification keeps the flat cap. -/
theorem step_seats (huni : UniqueRows db.activations)
    (hlic : lic∈db.licenses) (hks : (db.licenses.map LicenseRow.id).Nodup)
    (hpol : engine.devicePolicyFor lic.appKey=none)
    (hlim : ∀ pool, engine.policyLeaseUnlimited lic pool=false) (hseats : 0<lic.seats)
    (hbou : (activeCount db.activations lic.id : Int)≤lic.seats) (action : Action)
    (hact : ∀ now input, action≠.applyStoreKitNotification now input) :
    (activeCount (step engine db action).2.activations lic.id : Int)≤lic.seats := by
  have hmon : ∀ rows, activeCount rows lic.id≤activeCount db.activations lic.id →
      (activeCount rows lic.id : Int)≤lic.seats := fun rows hle => by omega
  have heq : ∀ {other device}, Admits engine db action other device → other.id=lic.id →
      other=lic := fun hadm hid => eq_of_key_eq LicenseRow.id hks hadm.license.1 hlic hid
  have heff := step_effect engine huni action
  generalize (step engine db action).2.activations=rows at heff ⊢
  cases heff with
  | idle => exact hbou
  | @rewritten other device _ f row hrew hrow _ _ =>
    obtain ⟨hmem,hlice,-⟩ := deviceRow_spec hrow
    have hadm := hrew.admits
    by_cases hid : other.id=lic.id
    · have hot := heq hadm hid
      subst hot
      have hsea := Admits.seat huni hadm hpol hlim hseats
      rw [hrow] at hsea
      rw [← hlice] at hbou hsea ⊢
      exact activeCount_rewrite_seat huni hmem f hbou
        (hsea.imp_left fun hlv => by simpa [isLive] using hlv)
    · refine hmon _ (activeCount_rewrite_other huni hmem (hrew.columns row).2.1 ?_)
      rw [hlice]
      exact hid
  | @inserted other device _ row hins hno _ _ =>
    have hadm := hins.admits
    by_cases hid : other.id=lic.id
    · have hot := heq hadm hid
      subst hot
      have hsea := Admits.seat huni hadm hpol hlim hseats
      rw [hno] at hsea
      have hfr := hsea.resolve_left (by simp [isLive])
      have hone : List.countP (liveOn other.id) [row]≤1 := countP_le_length
      unfold activeCount at hfr ⊢
      rw [countP_append]
      omega
    · have hdd : liveOn lic.id row=false := by
        simp only [liveOn,hins.columns.1,hid,decide_false,Bool.false_and]
      refine hmon _ ?_
      simp [activeCount,countP_append,hdd]
  | renewed => exact hmon _ (countP_updateWhere_le _ fun row _ _ hlv => hlv)
  | tombstoned hf =>
    refine hmon _ (countP_updateWhere_le _ fun row _ _ hlv => ?_)
    have hst := (Bool.and_eq_true_iff.mp hlv).2
    exact absurd (of_decide_eq_true hst) (hf.dead row)
  | restored =>
    refine hmon _ (countP_updateWhere_le _ fun row _ htgt _ => ?_)
    cases action with
    | applyStoreKitNotification now input => exact absurd rfl (hact now input)
    | _ => exact absurd htgt (by simp [restoreTarget])
  | deleted => exact hmon _ (countP_deleteWhere_le _ _ _)

/-- Requests of the flat-cap runs: everything but notifications. -/
def NotNotification (action : Action) : Prop :=
  ∀ now input, action≠.applyStoreKitNotification now input

/-- The flat cap holds in every reachable state: however admissions, renewals,
revocations, removals and deactivations interleave, the live rows of the
licence fit its seats and no device has two rows on one licence. -/
theorem flat_seat_cap (engine : Engine) (start : Database) (lic : LicenseRow)
    (hlic : lic∈start.licenses) (hkeys : (start.licenses.map LicenseRow.id).Nodup)
    (hpolicy : engine.devicePolicyFor lic.appKey=none)
    (hlimited : ∀ pool, engine.policyLeaseUnlimited lic pool=false) (hseats : 0<lic.seats)
    (hempty : start.activations=[]) {h : List (Event Database Action Outcome)} {s : Database}
    (hrun : Run (step engine) (fun _ _ action => NotNotification action) start h s) :
    (activeCount s.activations lic.id : Int)≤lic.seats ∧
      (s.activations.map fun row => (row.licenseId,row.deviceIdHash)).Nodup := by
  have hinv : UniqueRows s.activations∧s.licenses=start.licenses ∧
      (activeCount s.activations lic.id : Int)≤lic.seats := by
    refine Run.state_invariant (P := fun db => UniqueRows db.activations ∧
      db.licenses=start.licenses∧(activeCount db.activations lic.id : Int)≤lic.seats)
      hrun ?_ ?_
    · refine ⟨?_,rfl,?_⟩
      · simp [hempty,UniqueRows]
      · simp only [hempty,activeCount,countP_nil]
        omega
    · rintro _ db action ⟨huni,hlice,hbou⟩ hact
      refine ⟨step_unique engine huni action,?_,?_⟩
      · rw [step_licenses engine db action hact,hlice]
      · exact step_seats huni (hlice ▸ hlic) (hlice ▸ hkeys) hpolicy hlimited hseats
          hbou action hact
  exact ⟨hinv.2.2,hinv.1.2.1⟩

/-- Two devices ask for the single seat, one through each of two paths. -/
def sampleContenders : List Action :=
  [.issueDeviceLease 0 ⟨"act-1", "token-1", "lease-1"⟩ (sampleIssue "mac-a" "macos"),
    .activateLicenseOnDevice 1 ⟨"act-2", "token-2", "lease-2"⟩
      {storeId := "store-1", appKey := "app", licenseKey := "key-1", deviceId := "device-a"}]

/-- The cap at a run in which a second device contends for one seat. -/
theorem flat_seat_cap_contenders :
    (activeCount (play (step sampleEngine) [] sampleStart sampleContenders).2.activations "lic-1" :
        Int)≤1∧((play (step sampleEngine) [] sampleStart sampleContenders).2.activations.map
        fun row => (row.licenseId,row.deviceIdHash)).Nodup := by
  refine flat_seat_cap sampleEngine sampleStart sampleLicense (by simp [sampleStart]) (by decide)
    rfl (fun _ => rfl) (by decide) rfl (.play Run.nil sampleContenders ?_)
  exact ⟨fun _ _ => by simp,fun _ _ => by simp,trivial⟩

end SellRight.LicenseSeatCap
