import Mathlib.Data.String.Basic
import SellRight.LockOrder
import SellRight.LockSets

/-!
# Lock sets are taken in order and stop growing

A row of a plan is its canonical identifier. Union and subset of plans are
union and inclusion of their rows although one keeps raw spellings and the
other compares canonical ones. An attempt requests its locks along one strict
order, runs the caller's function only on rows it locked, and every growth
found under the locks adds a row, so growth is bounded by the rows there are.
-/

namespace SellRight.LockSetSafety

open RunHistory LockOrder LockSets List

variable {ω : Type}

/-- Row of a plan, named by its canonical identifier. -/
inductive PlannedRow
  | purchase (key : String)
  | license (id : String)
  | order (id : String)
  | reservation (id : String)
  deriving DecidableEq

/-- Lock that protects a row. -/
def PlannedRow.lockKey (hashtextextended : String → ℤ) : PlannedRow → LockKey
  | .purchase key => .purchase (hashtextextended key)
  | .license id => .license id
  | .order id => .order id
  | .reservation id => .reservation id

def rowsOf (plan : LockPlanContribution) : Finset PlannedRow :=
  (plan.purchases.map fun p => PlannedRow.purchase (purchaseLockKey p)).toFinset ∪
    (plan.licenseIds.map fun id => PlannedRow.license (canonical id)).toFinset ∪
    (plan.orderIds.map fun id => PlannedRow.order (canonical id)).toFinset ∪
    (plan.reservationIds.map fun id => PlannedRow.reservation (canonical id)).toFinset

/-- Locks are compared by their place in the global order. -/
noncomputable instance : Preorder LockKey := Preorder.lift LockKey.position

variable {plan grown a b : LockPlanContribution} {hash : String → ℤ}

@[simp] theorem purchase_mem_rowsOf {key : String} :
    PlannedRow.purchase key∈rowsOf plan ↔ ∃ p∈plan.purchases, purchaseLockKey p=key := by
  simp [rowsOf]

variable {id : String} {again : LockPlanContribution} {report : AttemptReport} {status : SetStatus}

@[simp] theorem license_mem_rowsOf :
    PlannedRow.license id∈rowsOf plan ↔ ∃ raw∈plan.licenseIds, canonical raw=id := by
  simp [rowsOf]

@[simp] theorem order_mem_rowsOf :
    PlannedRow.order id∈rowsOf plan ↔ ∃ raw∈plan.orderIds, canonical raw=id := by
  simp [rowsOf]

@[simp] theorem reservation_mem_rowsOf :
    PlannedRow.reservation id∈rowsOf plan ↔ ∃ raw∈plan.reservationIds, canonical raw=id := by
  simp [rowsOf]

/-- A plan lies in a set of rows when each of its lists does. -/
theorem rowsOf_subset {U : Finset PlannedRow} :
    rowsOf plan ⊆ U ↔ (∀ p∈plan.purchases, .purchase (purchaseLockKey p)∈U) ∧
      (∀ id∈plan.licenseIds, .license (canonical id)∈U) ∧
      (∀ id∈plan.orderIds, .order (canonical id)∈U) ∧
      ∀ id∈plan.reservationIds, .reservation (canonical id)∈U := by
  constructor
  · intro hsub
    exact ⟨fun p hp => hsub (purchase_mem_rowsOf.mpr ⟨p,hp,rfl⟩),
      fun id hid => hsub (license_mem_rowsOf.mpr ⟨id,hid,rfl⟩),
      fun id hid => hsub (order_mem_rowsOf.mpr ⟨id,hid,rfl⟩),
      fun id hid => hsub (reservation_mem_rowsOf.mpr ⟨id,hid,rfl⟩)⟩
  · rintro ⟨hpur,hlic,hord,hres⟩ row hrow
    simp only [rowsOf,Finset.mem_union,mem_toFinset,mem_map] at hrow
    rcases hrow with ((⟨p,hp,rfl⟩|⟨id,hid,rfl⟩)|⟨id,hid,rfl⟩)|⟨id,hid,rfl⟩
    exacts [hpur p hp,hlic id hid,hord id hid,hres id hid]

/-- The rows of two plans together are those of both, whatever their spelling. -/
theorem rowsOf_union : rowsOf (union a b)=rowsOf a ∪ rowsOf b := by
  ext row
  cases row <;> simp [union,mem_eraseDups,or_and_right,exists_or]

theorem idsWithin_iff {left right : List String} :
    idsWithin left right=true ↔ ∀ id∈left, ∃ raw∈right, canonical raw=canonical id := by
  simp [idsWithin]

/-- The subset check is inclusion of the canonical rows. -/
theorem subsetOf_iff : subsetOf a b=true ↔ rowsOf a ⊆ rowsOf b := by
  rw [rowsOf_subset,subsetOf]
  simp only [Bool.and_eq_true,idsWithin_iff,all_eq_true,contains_iff_mem,
    mem_map,purchase_mem_rowsOf,license_mem_rowsOf,order_mem_rowsOf,
    reservation_mem_rowsOf]
  tauto

/-- A plan joined to one it is not part of has strictly more rows. -/
theorem rowsOf_ssubset_union (hgro : subsetOf grown plan=false) :
    rowsOf plan ⊂ rowsOf (union plan grown) := by
  rw [rowsOf_union,Finset.ssubset_iff_subset_ne]
  refine ⟨Finset.subset_union_left,fun heq => ?_⟩
  have hins : rowsOf grown ⊆ rowsOf plan := heq ▸ Finset.subset_union_right
  rw [← subsetOf_iff,hgro] at hins
  exact Bool.false_ne_true hins

/-- Keeping first occurrences leaves no repetition. -/
theorem nodup_eraseDups {α : Type*} [DecidableEq α] (values : List α) : values.eraseDups.Nodup := by
  induction hsiz : values.length using Nat.strong_induction_on generalizing values with
  | _ size ih =>
    cases values with
    | nil => simp
    | cons value rest =>
      rw [eraseDups_cons,nodup_cons]
      have hsho : (rest.filter fun other => !other == value).length<size := by
        have hle := length_filter_le (fun other => !other == value) rest
        simp only [length_cons] at hsiz
        omega
      exact ⟨by simp [mem_eraseDups],ih _ hsho _ rfl⟩

theorem insertionSort_climbs {α : Type*} [LinearOrder α] [DecidableEq α] (values : List α) :
    (values.eraseDups.insertionSort (· ≤ ·)).Pairwise (· < ·) := by
  have hsor := pairwise_insertionSort (α := α) (· ≤ ·) values.eraseDups
  have hdis : (values.eraseDups.insertionSort (· ≤ ·)).Nodup :=
    (perm_insertionSort (· ≤ ·) values.eraseDups).nodup_iff.mpr (nodup_eraseDups values)
  exact hsor.imp₂ (fun _ _ hle hne => lt_of_le_of_ne hle hne) hdis

/-- Every lock of a plan, in the order an attempt requests them. -/
def lockSequence (hash : String → ℤ) (plan : LockPlanContribution) : List LockKey :=
  firstLocks hash plan++lockRows .reservation plan.reservationIds

variable {purchases : List PurchaseId}

theorem mem_acquirePurchaseLocks {key : LockKey} :
    key∈acquirePurchaseLocks hash purchases ↔
      ∃ p∈purchases, key=.purchase (hash (purchaseLockKey p)) := by
  simp [acquirePurchaseLocks,mem_eraseDups,eq_comm]

theorem mem_lockRows {table : String → LockKey} {ids : List String} {key : LockKey} :
    key∈lockRows table ids ↔ ∃ id∈ids, key=table (canonical id) := by
  simp [lockRows,mem_eraseDups,eq_comm]

theorem lockKey_mem_lockSequence {row : PlannedRow} (hrow : row∈rowsOf plan) :
    row.lockKey hash∈lockSequence hash plan := by
  simp only [lockSequence,firstLocks,mem_append,mem_acquirePurchaseLocks,mem_lockRows]
  simp only [rowsOf,Finset.mem_union,mem_toFinset,mem_map] at hrow
  rcases hrow with ((⟨p,hp,rfl⟩|⟨id,hid,rfl⟩)|⟨id,hid,rfl⟩)|⟨id,hid,rfl⟩
  · exact .inl (.inl (.inl ⟨p,hp,rfl⟩))
  · exact .inl (.inl (.inr ⟨id,hid,rfl⟩))
  · exact .inl (.inr ⟨id,hid,rfl⟩)
  · exact .inr ⟨id,hid,rfl⟩

/-- A lock of a lower class comes first. -/
theorem lt_of_class {left right : LockKey}
    (hcla : (ofLex left.position).1<(ofLex right.position).1) : left<right :=
  Prod.Lex.lt_iff.mpr (.inl hcla)

theorem acquirePurchaseLocks_climbs (purchases : List PurchaseId) :
    (acquirePurchaseLocks hash purchases).Pairwise (· < ·) := by
  refine List.Pairwise.map _ (fun low high hlt => ?_) (insertionSort_climbs _)
  have hinn : toLex (low, "")<toLex (high, "") := Prod.Lex.lt_iff.mpr (.inl hlt)
  exact Prod.Lex.lt_iff.mpr (.inr ⟨rfl,hinn⟩)

theorem lockRows_climbs (table : String → LockKey) {rank : ℕ}
    (htab : ∀ id, (table id).position=toLex (rank,toLex (0,id))) (ids : List String) :
    (lockRows table ids).Pairwise (· < ·) := by
  refine List.Pairwise.map _ (fun low high hlt => ?_) (insertionSort_climbs _)
  have hinn : toLex ((0 : ℤ),low)<toLex (0,high) := Prod.Lex.lt_iff.mpr (.inr ⟨rfl,hlt⟩)
  change (table low).position<(table high).position
  rw [htab,htab]
  exact Prod.Lex.lt_iff.mpr (.inr ⟨rfl,hinn⟩)

theorem lockSequence_climbs (hash : String → ℤ) (plan : LockPlanContribution) :
    (lockSequence hash plan).Pairwise (· < ·) := by
  have hpur : (acquirePurchaseLocks hash plan.purchases).Pairwise (· < ·) :=
    acquirePurchaseLocks_climbs plan.purchases
  have hlic := lockRows_climbs .license (fun _ => rfl) plan.licenseIds
  have hord := lockRows_climbs .order (fun _ => rfl) plan.orderIds
  have hres := lockRows_climbs .reservation (fun _ => rfl) plan.reservationIds
  simp only [lockSequence,firstLocks,pairwise_append,mem_append,
    mem_acquirePurchaseLocks,mem_lockRows]
  refine ⟨⟨⟨hpur,hlic,?_⟩,hord,?_⟩,hres,?_⟩
  · rintro low ⟨p,-,rfl⟩ high ⟨id,-,rfl⟩
    exact lt_of_class (by simp [LockKey.position])
  · rintro low (⟨p,-,rfl⟩|⟨id,-,rfl⟩) high ⟨other,-,rfl⟩ <;>
    exact lt_of_class (by simp [LockKey.position])
  · rintro low ((⟨p,-,rfl⟩|⟨id,-,rfl⟩)|⟨id,-,rfl⟩) high ⟨other,-,rfl⟩ <;>
    exact lt_of_class (by simp [LockKey.position])

theorem requestAll_front (fate : LockKey → Option DbError) (keys : List LockKey) :
    (requestAll fate keys).1 <+: keys := by
  induction keys with
  | nil => exact prefix_refl []
  | cons key keys ih =>
    rw [requestAll]
    cases fate key with
    | some => exact prefix_append [key] keys
    | none => exact prefix_cons_inj key |>.mpr ih

/-- Requests that all went through were all made and all granted. -/
theorem requestAll_granted {fate : LockKey → Option DbError} {keys : List LockKey}
    (hno : (requestAll fate keys).2=none) :
    (requestAll fate keys).1=keys∧∀ key∈keys, fate key=none := by
  induction keys with
  | nil => simp [requestAll]
  | cons key _ ih =>
    rw [requestAll] at hno ⊢
    cases hfat : fate key with
    | some => simp [hfat] at hno
    | none =>
      simp only [hfat] at hno ⊢
      obtain ⟨hall,hgra⟩ := ih hno
      exact ⟨by rw [hall],forall_mem_cons.mpr ⟨hfat,hgra⟩⟩

variable {contributors : List (LockPlanContributor ω)} {subjects : List LockSubject}
  {world : Surroundings ω}

/-- Everything an attempt can do for a plan and the plan read again: stop
while it takes the first three classes or plans again, find growth, fail at a
reservation, or run the caller's function. -/
inductive Outcome (hash : String → ℤ) (plan again : LockPlanContribution)
    (world : Surroundings ω) : AttemptReport → Prop
  /-- A statement failed before the second plan was known. -/
  | stopped {requested : List LockKey} {error : DbError} :
      requested <+: lockSequence hash plan →
      Outcome hash plan again world ⟨requested,none,false,some (.db error)⟩
  /-- The second plan has a row outside the first. -/
  | grew {requested : List LockKey} :
      requested <+: lockSequence hash plan→subsetOf again plan=false →
      Outcome hash plan again world ⟨requested,some again,false,some (.setGrew again)⟩
  | blocked {requested : List LockKey} {error : DbError} :
      requested <+: lockSequence hash plan →
      Outcome hash plan again world ⟨requested,some again,false,some (.db error)⟩
  /-- Every lock was granted and the caller's function ran. -/
  | ran :
      subsetOf again plan=true→(∀ key∈lockSequence hash plan, world.fate key=none) →
      Outcome hash plan again world ⟨lockSequence hash plan,some again,true,world.body⟩

/-- The reservation locks extend the first three classes to the sequence. -/
theorem finishAttempt_outcome (hsub : subsetOf again plan=true)
    (hfst : ∀ key∈firstLocks hash plan, world.fate key=none) : Outcome hash plan again world
      (finishAttempt plan again world (firstLocks hash plan)) := by
  have hpre : firstLocks hash plan ++
      (requestAll world.fate (lockRows .reservation plan.reservationIds)).1 <+:
      lockSequence hash plan :=
    (prefix_append_right_inj _).mpr (requestAll_front _ _)
  unfold finishAttempt
  cases hrt : (requestAll world.fate (lockRows .reservation plan.reservationIds)).2 with
  | some =>
    dsimp only
    rw [hrt]
    exact .blocked hpre
  | none =>
    obtain ⟨hall,hgra⟩ := requestAll_granted hrt
    dsimp only
    rw [hrt,hall]
    refine .ran hsub fun key hkey => ?_
    rcases mem_append.mp hkey with hear|hlat
    · exact hfst key hear
    · exact hgra key hlat

/-- An attempt does one of the four things. -/
theorem attemptSet_outcome : Outcome hash plan (planFor contributors subjects world.views) world
      (attemptSet hash contributors subjects plan world) := by
  have hpre : (requestAll world.fate (firstLocks hash plan)).1 <+: lockSequence hash plan :=
    (requestAll_front _ _).trans (prefix_append _ _)
  unfold attemptSet
  cases world.opening with
  | some => exact .stopped nil_prefix
  | none =>
    dsimp only
    cases hfst : (requestAll world.fate (firstLocks hash plan)).2 with
    | some => exact .stopped hpre
    | none =>
      obtain ⟨hall,hgra⟩ := requestAll_granted hfst
      rw [hall] at hpre ⊢
      unfold verifyAttempt
      cases world.planning with
      | some => exact .stopped hpre
      | none =>
        dsimp only
        split_ifs with hsub
        · exact finishAttempt_outcome hsub hgra
        · exact .grew hpre (Bool.eq_false_iff.mpr hsub)

section
variable (hout : Outcome hash plan again world report)
include hout

/-- An attempt requests its locks along the global order. -/
theorem Outcome.climbs :
    report.requested.Pairwise (· < ·) := by
  have hcli := lockSequence_climbs hash plan
  cases hout with
  | stopped hpre => exact hcli.sublist hpre.sublist
  | grew hpre => exact hcli.sublist hpre.sublist
  | blocked hpre => exact hcli.sublist hpre.sublist
  | ran => exact hcli

/-- The caller's function runs on a plan all of whose rows were locked. -/
theorem Outcome.covers (hran : report.ran=true) :
    report.again=some again∧∀ row∈rowsOf again,
      row.lockKey hash∈report.requested∧world.fate (row.lockKey hash)=none := by
  cases hout with
  | stopped | grew | blocked => cases hran
  | ran hsub hgra =>
    refine ⟨rfl,fun row hrow => ?_⟩
    have hkey : row.lockKey hash∈lockSequence hash plan :=
      lockKey_mem_lockSequence (subsetOf_iff.mp hsub hrow)
    exact ⟨hkey,hgra _ hkey⟩

/-- Growth found under the locks has a row outside the plan. -/
theorem Outcome.outgrows {grown : LockPlanContribution} (hran : report.ran=false)
    (hfai : report.failure=some (.setGrew grown)) : subsetOf grown plan=false := by
  cases hout with
  | stopped | blocked => cases hfai
  | grew _ hsub =>
    cases hfai
    exact hsub
  | ran => cases hran

/-- Growth comes from the second plan or from the caller's function. -/
theorem Outcome.growth_source {grown : LockPlanContribution}
    (hfai : report.failure=some (.setGrew grown)) :
    grown=again∨world.body=some (.setGrew grown) := by
  cases hout with
  | stopped | blocked => cases hfai
  | grew =>
    cases hfai
    exact .inl rfl
  | ran => exact .inr hfai

end

/-- Every row of a snapshot that a plan can name lies in the universe. -/
structure RowsIn (U : Finset PlannedRow) (rows : Rows ω) : Prop where
  licenses : ∀ l∈rows.licenses, .license (canonical l.id)∈U
  orders : ∀ o∈rows.orders, .order (canonical o.id)∈U
  reservations : ∀ r∈rows.reservations, .reservation (canonical r.id)∈U
  bound : ∀ p∈rows.purchases, ∀ id, p.licenseId=some id → .license (canonical id)∈U

/-- The rows a subject names itself lie in the universe. -/
def SubjectIn (U : Finset PlannedRow) : LockSubject → Prop
  | .order orderId => .order (canonical orderId)∈U
  | .notification purchase => .purchase (purchaseLockKey purchase)∈U
  | .link purchases => ∀ p∈purchases, .purchase (purchaseLockKey p)∈U
  | .checkout sourceLicenseId => ∀ id, sourceLicenseId=some id → .license (canonical id)∈U
  | .customer _ _ => True
  | .loyalty _ => True

/-- A contributor names rows of the universe for subjects and snapshots of it. -/
def ContributorIn (U : Finset PlannedRow) (contributor : LockPlanContributor ω) : Prop :=
  ∀ views start subject, (∀ n, RowsIn U (views n)) → SubjectIn U subject →
    rowsOf (contributor views start subject).1 ⊆ U

variable {U : Finset PlannedRow} {views : Views ω}

section
variable (hvie : ∀ n, RowsIn U (views n))
include hvie

/-- The purchases of a subject and their licences lie in the universe. -/
theorem planPurchases_within {start : ℕ} (hnm : ∀ p∈purchases, .purchase (purchaseLockKey p)∈U) :
    rowsOf (planPurchases views start purchases).1 ⊆ U := by
  refine rowsOf_subset.mpr ⟨hnm,fun id hid => ?_,by simp [planPurchases],by simp [planPurchases]⟩
  obtain ⟨p,-,hbou⟩ := mem_flatMap.mp hid
  obtain ⟨row,hrow,hlic⟩ := mem_filterMap.mp hbou
  exact (hvie p.2).bound row (mem_of_mem_filter hrow) id hlic

variable {subject : LockSubject}

theorem planOne_within {start : ℕ}
    (hsub : SubjectIn U subject) : rowsOf (planOne views start subject).1 ⊆ U := by
  have hlic : ∀ n keep, ∀ id∈((views n).licenses.filter keep).map LicenseRow.id,
      PlannedRow.license (canonical id)∈U := by
    intro n keep id hid
    obtain ⟨row,hrow,rfl⟩ := mem_map.mp hid
    exact (hvie n).licenses row (mem_of_mem_filter hrow)
  have hord : ∀ n keep, ∀ id∈((views n).orders.filter keep).map OrderRow.id,
      PlannedRow.order (canonical id)∈U := by
    intro n keep id hid
    obtain ⟨row,hrow,rfl⟩ := mem_map.mp hid
    exact (hvie n).orders row (mem_of_mem_filter hrow)
  have hno : ∀ P : String → Prop, ∀ id∈([] : List String), P id := by simp
  have hnoP : ∀ p∈([] : List PurchaseId), .purchase (purchaseLockKey p)∈U := by simp
  cases subject with
  | order =>
    refine rowsOf_subset.mpr ⟨hnoP,hlic start _,fun id hid => ?_,hno _⟩
    rw [mem_singleton.mp hid]
    exact hsub
  | notification =>
    exact planPurchases_within hvie fun p hp => by rw [mem_singleton.mp hp]; exact hsub
  | link => exact planPurchases_within hvie hsub
  | customer _ scope =>
    cases scope with
    | all => exact rowsOf_subset.mpr ⟨hnoP,hlic _ _,hord start _,hno _⟩
    | orders => exact rowsOf_subset.mpr ⟨hnoP,hno _,hord start _,hno _⟩
  | checkout =>
    refine rowsOf_subset.mpr ⟨hnoP,fun id hid => ?_,hno _,hno _⟩
    have hfil := Option.mem_toList.mp hid
    exact hsub id (Option.filter_eq_some_iff.mp hfil).1
  | loyalty => exact rowsOf_subset.mpr ⟨hnoP,hno _,hord start _,hno _⟩

variable {planned : LockPlanContribution×ℕ}

/-- Joining contributors keeps a plan in the universe. -/
theorem contribute_within
    (hsub : SubjectIn U subject) {contributors : List (LockPlanContributor ω)}
    (hcon : ∀ contributor∈contributors, ContributorIn U contributor) (hpla : rowsOf planned.1 ⊆ U) :
    rowsOf (contributors.foldl (contribute views subject) planned).1 ⊆ U := by
  induction contributors generalizing planned with
  | nil => exact hpla
  | cons contributor _ ih =>
    have had := hcon contributor mem_cons_self views planned.2 subject hvie hsub
    refine ih (fun other hot => hcon other (mem_cons_of_mem _ hot)) ?_
    rw [contribute,rowsOf_union]
    exact Finset.union_subset hpla had

section
variable {contributors : List (LockPlanContributor ω)}
variable (hcon : ∀ contributor∈contributors, ContributorIn U contributor)
variable {subjects : List LockSubject}
include hcon

/-- Joining subjects keeps a plan in the universe. -/
theorem planSubjects_within (hsubj : ∀ subject∈subjects, SubjectIn U subject) (hpla : rowsOf planned.1 ⊆ U) :
    rowsOf (subjects.foldl (planSubject contributors views) planned).1 ⊆ U := by
  induction subjects generalizing planned with
  | nil => exact hpla
  | cons subject _ ih =>
    have hsub := hsubj subject mem_cons_self
    refine ih (fun other hot => hsubj other (mem_cons_of_mem _ hot)) ?_
    refine contribute_within hvie hsub hcon ?_
    rw [rowsOf_union]
    exact Finset.union_subset hpla (planOne_within hvie hsub)

/-- A plan read from snapshots of the universe lies in it. -/
theorem planFor_within (hsub : ∀ subject∈subjects, SubjectIn U subject) :
    rowsOf (planFor contributors subjects views) ⊆ U := by
  have hem : rowsOf EMPTY ⊆ U := by simp [rowsOf,EMPTY]
  have hpla : rowsOf (subjects.foldl (planSubject contributors views) (EMPTY,0)).1 ⊆ U :=
    planSubjects_within hvie hcon hsub hem
  unfold planFor
  dsimp only
  split
  · exact hpla
  rw [rowsOf_union]
  refine Finset.union_subset hpla (rowsOf_subset.mpr ⟨by simp,by simp,by simp,?_⟩)
  intro id hid
  obtain ⟨row,hrow,rfl⟩ := mem_map.mp hid
  exact (hvie _).reservations row (mem_of_mem_filter hrow)

end

end

/-- Turn of a retry loop with the attempt it made. -/
abbrev Turn (ω : Type) := Event SetStatus (Surroundings ω) (Option AttemptReport)

/-- An attempt rolled back by growth: of the plan read again under the locks,
or of a set nested in the caller's function that named a row outside the plan. -/
def outgrew (plan : LockPlanContribution) (report : AttemptReport) : Bool :=
  match report.failure with
  | some (.setGrew grown) => !report.ran || !subsetOf grown plan
  | _ => false

/-- An attempt rolled back by growth raised inside the caller's function. -/
def nestedGrew (report : AttemptReport) : Bool :=
  match report.failure with
  | some (.setGrew _) => report.ran
  | _ => false

/-- A turn that restarts after growth. -/
def growthRestart (turn : Turn ω) : Bool :=
  match turn.before, turn.result with
  | .running s, some report => outgrew s.plan report
  | _, _ => false

/-- A turn whose growth the caller's function raised. -/
def nestedGrowth (turn : Turn ω) : Bool := turn.result.any nestedGrew

/-- Whether a call still runs. -/
def isRunning : SetStatus → Bool
  | .running _ => true
  | _ => false

/-- A running call has its loop variables. -/
theorem isRunning_spec (hrun : isRunning status=true) : ∃ s, status=.running s := by
  cases status with
  | running s => exact ⟨s,rfl⟩
  | returned | threw => cases hrun

/-- Turns of a call that still runs, among the rows of a universe. -/
def Possible (U : Finset PlannedRow) (_ : List (Turn ω)) (status : SetStatus)
    (world : Surroundings ω) : Prop :=
  isRunning status=true∧(∀ n, RowsIn U (world.views n)) ∧
    ∀ grown, world.body=some (.setGrew grown) → rowsOf grown ⊆ U

variable {opts : SetOptions}

/-- A call that must commit restarts with the grown plan, restarts with the
same plan while transient failures are allowed, or ends. -/
theorem handle_mustCommit (hmus : opts.mustCommit=true) (s : RetryState)
    (failure : Option LockError) : (∃ grown, failure=some (.setGrew grown) ∧
      handle opts s failure=.running ⟨union s.plan grown,s.attempt+1,s.transientRetries⟩) ∨
    (failure=some (.db .deadlockOrSerialization)∧s.transientRetries<opts.maxRestarts ∧
      handle opts s failure=.running ⟨s.plan,s.attempt+1,s.transientRetries+1⟩) ∨
    ((∀ grown, failure≠some (.setGrew grown))∧∀ next, handle opts s failure≠.running next) := by
  cases failure with
  | none => exact .inr (.inr ⟨by simp,by simp [handle]⟩)
  | some error =>
    cases error with
    | db error =>
      cases error with
      | deadlockOrSerialization =>
        by_cases hmor : s.transientRetries ≥ opts.maxRestarts
        · exact .inr (.inr ⟨by simp,by simp [handle,hmor]⟩)
        · exact .inr (.inl ⟨rfl,by omega,by simp only [handle,if_neg hmor]⟩)
      | lockTimeout => exact .inr (.inr ⟨by simp,by simp [handle,hmus]⟩)
      | other => exact .inr (.inr ⟨by simp,by simp [handle]⟩)
    | setGrew grown => exact .inl ⟨grown,rfl,by simp only [handle,if_pos hmus]⟩
    | setUnstable | other => exact .inr (.inr ⟨by simp,by simp [handle]⟩)

/-- The plan of a running call lies in the universe. -/
def StatusIn (U : Finset PlannedRow) (status : SetStatus) : Prop :=
  ∀ s, status=.running s → rowsOf s.plan ⊆ U

/-- Number of rows a call has planned; all there are once it ended. -/
def plannedSize (U : Finset PlannedRow) : SetStatus → ℕ
  | .running s => (rowsOf s.plan).card
  | _ => U.card

/-- Restarting a running call joins the grown rows to its plan, or keeps it. -/
theorem loopStep_plan (hmus : opts.mustCommit=true) {s next : RetryState}
    (hnx : (loopStep hash opts contributors subjects (.running s) world).2=.running next) :
    (∃ grown, (attemptSet hash contributors subjects s.plan world).failure =
        some (.setGrew grown)∧next.plan=union s.plan grown) ∨
      ((∀ grown, (attemptSet hash contributors subjects s.plan world).failure ≠
        some (.setGrew grown))∧next.plan=s.plan) := by
  change handle opts s _=_ at hnx
  rcases handle_mustCommit hmus s (attemptSet hash contributors subjects s.plan world).failure with
    ⟨grown,hgre,hrun⟩|⟨hdea,-,hrun⟩|⟨-,hend⟩
  · rw [hrun] at hnx
    cases hnx
    exact .inl ⟨grown,hgre,rfl⟩
  · rw [hrun] at hnx
    cases hnx
    exact .inr ⟨fun grown => by simp [hdea],rfl⟩
  · exact absurd hnx (hend next)

/-- The rows that made an attempt outgrow its plan are outside it. -/
theorem Outcome.outgrew_spec
    (hout : Outcome hash plan again world report) (hgre : outgrew plan report=true) :
    ∃ grown, report.failure=some (.setGrew grown)∧subsetOf grown plan=false := by
  unfold outgrew at hgre
  cases hfai : report.failure with
  | none => simp [hfai] at hgre
  | some error =>
    cases error with
    | setGrew grown =>
      refine ⟨grown,rfl,?_⟩
      cases hran : report.ran with
      | false => exact hout.outgrows hran hfai
      | true => simpa [hfai,hran] using hgre
    | db | setUnstable | other => simp [hfai] at hgre

theorem growthRestart_enlarges (hmus : opts.mustCommit=true) {s : RetryState}
    (hgro : growthRestart (perform (loopStep hash opts contributors subjects) (.running s) world)
      = true) :
    ∃ next, (loopStep hash opts contributors subjects (.running s) world).2=.running next ∧
      rowsOf s.plan ⊂ rowsOf next.plan := by
  obtain ⟨grown,hfai,hout⟩ := attemptSet_outcome.outgrew_spec hgro
  refine ⟨⟨union s.plan grown,s.attempt+1,s.transientRetries⟩,?_,rowsOf_ssubset_union hout⟩
  change handle opts s _=_
  rw [hfai]
  simp only [handle,if_pos hmus]

/-- The plan of a call stays in the universe and never loses a row. -/
theorem loopStep_grows (hmus : opts.mustCommit=true)
    (hcon : ∀ contributor∈contributors, ContributorIn U contributor)
    (hsub : ∀ subject∈subjects, SubjectIn U subject)
    {past : List (Turn ω)} (hin : StatusIn U status) (hpos : Possible U past status world) :
    StatusIn U (loopStep hash opts contributors subjects status world).2∧plannedSize U status ≤
        plannedSize U (loopStep hash opts contributors subjects status world).2 ∧
      (growthRestart (perform (loopStep hash opts contributors subjects) status world)=true →
        plannedSize U status <
          plannedSize U (loopStep hash opts contributors subjects status world).2) := by
  obtain ⟨hrun,hvie,hbod⟩ := hpos
  obtain ⟨s,rfl⟩ := isRunning_spec hrun
  have hpl := hin s rfl
  have haga := planFor_within hvie hcon hsub
  have hout : Outcome hash s.plan (planFor contributors subjects world.views) world
      (attemptSet hash contributors subjects s.plan world) := attemptSet_outcome
  refine ⟨fun next hnx => ?_,?_,fun hgrow => ?_⟩
  · rcases loopStep_plan hmus hnx with ⟨grown,hfai,huni⟩|⟨-,heq⟩
    · have hgro : rowsOf grown ⊆ U := by
        rcases hout.growth_source hfai with rfl|hnes
        · exact haga
        · exact hbod grown hnes
      rw [huni,rowsOf_union]
      exact Finset.union_subset hpl hgro
    · rw [heq]
      exact hpl
  · cases hnx : (loopStep hash opts contributors subjects (.running s) world).2 with
    | running next =>
      rcases loopStep_plan hmus hnx with ⟨grown,-,huni⟩|⟨-,heq⟩
      · have hmor : rowsOf s.plan ⊆ rowsOf next.plan := by
          rw [huni,rowsOf_union]
          exact Finset.subset_union_left
        exact Finset.card_le_card hmor
      · exact (congrArg (fun plan => (rowsOf plan).card) heq).ge
    | returned | threw => exact Finset.card_le_card hpl
  · obtain ⟨next,hnx,hmor⟩ := growthRestart_enlarges hmus hgrow
    rw [hnx]
    exact Finset.card_lt_card hmor

/-- Every attempt of a call that must commit ended it, restarted it after
growth or after one of the allowed transient failures. -/
theorem attempts_counted (hmus : opts.mustCommit=true) {start : SetStatus}
    (hsta : ∀ s, start=.running s→s.transientRetries=0) {h : List (Turn ω)}
    (hrun : Run (loopStep hash opts contributors subjects) (Possible U) start h status)
    (hq : ∀ turn∈h, nestedGrowth turn=false) : h.length≤h.countP growthRestart+opts.maxRestarts+1 ∧
      ∀ s, status=.running s→h.length=h.countP growthRestart+s.transientRetries ∧
        s.transientRetries≤opts.maxRestarts := by
  induction hrun with
  | nil => exact ⟨by simp,fun s hs => ⟨by simp [hsta s hs],by simp [hsta s hs]⟩⟩
  | @snoc h status world _ hpos ih =>
    obtain ⟨s,rfl⟩ := isRunning_spec hpos.1
    obtain ⟨-,hct⟩ := ih fun turn htur => hq turn (mem_append_left _ htur)
    obtain ⟨hlen,hret⟩ := hct s rfl
    have hlt := hq _ (mem_append_right h mem_cons_self)
    rw [length_append,countP_append,countP_singleton,length_singleton]
    refine ⟨by split <;> omega,fun next hnx => ?_⟩
    change handle opts s _=_ at hnx
    change nestedGrew (attemptSet hash contributors subjects s.plan world)=false at hlt
    change _=(_+if outgrew s.plan (attemptSet hash contributors subjects s.plan world)=true
      then 1 else 0)+_∧_
    generalize attemptSet hash contributors subjects s.plan world=report at *
    rcases handle_mustCommit hmus s report.failure with
      ⟨grown,hfai,hrun⟩|⟨hfai,hmor,hrun⟩|⟨-,hend⟩
    · rw [hrun] at hnx
      cases hnx
      have hran : report.ran=false := by simpa [nestedGrew,hfai] using hlt
      have hgre : outgrew s.plan report=true := by simp [outgrew,hfai,hran]
      rw [if_pos hgre]
      exact ⟨by dsimp only; omega,hret⟩
    · rw [hrun] at hnx
      cases hnx
      have hgre : outgrew s.plan report=false := by simp [outgrew,hfai]
      rw [hgre]
      exact ⟨by simp only [Bool.false_eq_true,if_false]; omega,hmor⟩
    · exact absurd hnx (hend next)

/-- Progress of a transaction through the one attempt it runs. -/
def singleAttempt (hash : String → ℤ) (contributors : List (LockPlanContributor ω))
    (subjects : List LockSubject) (plan : LockPlanContribution) (world : Surroundings ω)
    (granted : ℕ) : Holder LockKey :=
  ⟨(attemptSet hash contributors subjects plan world).requested,granted⟩

/-- Lock sets are taken along one global order, so transactions of one attempt
each never wait in a cycle; the caller's function runs only when every row
planned again under the locks is locked; and when the call must commit, every
restart after growth plans strictly more rows, so these restarts are no more
than the rows of the universe, and the loop ends. -/
theorem lockSets_ordered_and_bounded (hash : String → ℤ)
    (contributors : List (LockPlanContributor ω)) : (∀ subjects plan (world : Surroundings ω),
      (attemptSet hash contributors subjects plan world).requested.Pairwise
        fun low high => low.position<high.position) ∧
    (∀ (ι : Type) (subjects : ι → List LockSubject) (plan : ι → LockPlanContribution)
      (world : ι → Surroundings ω) (granted : ι → ℕ) (i : ι),¬ Relation.TransGen (fun a b =>
        WaitsFor (singleAttempt hash contributors (subjects a) (plan a) (world a) (granted a))
          (singleAttempt hash contributors (subjects b) (plan b) (world b) (granted b))) i i) ∧
    (∀ subjects plan (world : Surroundings ω),
      (attemptSet hash contributors subjects plan world).ran=true →
      (attemptSet hash contributors subjects plan world).again =
          some (planFor contributors subjects world.views) ∧
        ∀ row∈rowsOf (planFor contributors subjects world.views),
          row.lockKey hash∈(attemptSet hash contributors subjects plan world).requested ∧
            world.fate (row.lockKey hash)=none) ∧
    (∀ (opts : SetOptions) subjects (views : Views ω) (U : Finset PlannedRow),
      opts.mustCommit=true→(∀ contributor∈contributors, ContributorIn U contributor) →
      (∀ subject∈subjects, SubjectIn U subject)→(∀ n, RowsIn U (views n)) →
      ∀ h status, Run (loopStep hash opts contributors subjects) (Possible U)
        (withLockedSet contributors subjects views) h status →
      (∀ turn∈h, growthRestart turn=true→∃ s next, turn.before=.running s ∧
        turn.after=.running next∧rowsOf s.plan ⊂ rowsOf next.plan)∧h.countP growthRestart≤U.card ∧
      ((∀ turn∈h, nestedGrowth turn=false)→h.length≤U.card+opts.maxRestarts+1)) := by
  refine ⟨fun subjects plan world => attemptSet_outcome.climbs,?_,?_,?_⟩
  · intro ι subjects plan world granted i
    exact no_waiting_cycle (fun a => attemptSet_outcome.climbs) i
  · intro subjects plan world hran
    exact attemptSet_outcome.covers hran
  · intro opts subjects views U hmus hcon hsub hvie h status hrun
    have hsta : StatusIn U (withLockedSet contributors subjects views) := by
      intro s hs
      cases hs
      exact planFor_within hvie hcon hsub
    obtain ⟨hend,hct⟩ := Run.countP_le (P := StatusIn U) (q := growthRestart) hrun hsta
      fun past status world hin hpos => loopStep_grows hmus hcon hsub hin hpos
    have hsiz : plannedSize U status≤U.card := by
      cases status with
      | running s => exact Finset.card_le_card (hend s rfl)
      | returned | threw => exact le_refl _
    have hgrow : h.countP growthRestart≤U.card := by omega
    refine ⟨fun turn htur hgro => ?_,hgrow,fun hq => ?_⟩
    · obtain ⟨before,later,rfl⟩ := append_of_mem htur
      obtain ⟨-,hpos,htur⟩ := Run.split hrun
      obtain ⟨s,hs⟩ := isRunning_spec hpos.1
      rw [hs] at htur
      rw [htur] at hgro ⊢
      obtain ⟨next,hnx,hmor⟩ := growthRestart_enlarges hmus hgro
      exact ⟨s,next,rfl,hnx,hmor⟩
    · have hlen := (attempts_counted hmus (fun s hs => by cases hs; rfl) hrun hq).1
      omega

/-- Snapshot of a store with one order; a licence and a reservation of it may
have appeared. -/
def sampleRows (licenses : List LicenseRow) (reservations : List ReservationRow) : Rows Unit :=
  ⟨licenses,[⟨"o1",none,false⟩],reservations,[],()⟩

/-- Surroundings of an attempt that meets no error. -/
def sampleWorld (rows : Rows Unit) : Surroundings Unit :=
  ⟨none,fun _ => none,none,fun _ => rows,none⟩

/-- First a licence appears between planning and locking, then a reservation. -/
def sampleWorlds : List (Surroundings Unit) := [sampleWorld (sampleRows [⟨"l1",some "o1",none⟩] []),
    sampleWorld (sampleRows [⟨"l1",some "o1",none⟩] [⟨"r1", "o1"⟩]),
    sampleWorld (sampleRows [⟨"l1",some "o1",none⟩] [⟨"r1", "o1"⟩])]

/-- Rows that can appear in the sample. -/
def sampleUniverse : Finset PlannedRow := {.order "o1", .license "l1", .reservation "r1"}

/-- The sample call. -/
def sampleStep : SetStatus → Surroundings Unit → Option AttemptReport×SetStatus :=
  loopStep (fun key => key.length) ⟨3,true⟩ [] [.order "O1"]

theorem sampleRows_in {licenses : List LicenseRow} {reservations : List ReservationRow}
    (hlic : ∀ l∈licenses, l.id = "l1") (hres : ∀ r∈reservations, r.id = "r1") :
    RowsIn sampleUniverse (sampleRows licenses reservations) where
  licenses := fun l hl => by rw [hlic l hl]; decide
  orders := fun o ho => by rw [mem_singleton.mp ho]; decide
  reservations := fun r hr => by rw [hres r hr]; decide
  bound := fun p hp => absurd hp not_mem_nil

/-- The sample call restarts twice after growth and then returns. -/
theorem lockSets_ordered_and_bounded_licenseIssued :
    ∃ h : List (Turn Unit), h.countP growthRestart=2∧h.countP growthRestart≤3∧h.length≤3+3+1 := by
  have hno : RowsIn sampleUniverse (sampleRows [] []) := sampleRows_in (by simp) (by simp)
  have hiss : RowsIn sampleUniverse (sampleRows [⟨"l1",some "o1",none⟩] []) :=
    sampleRows_in (by simp) (by simp)
  have hres : RowsIn sampleUniverse
      (sampleRows [⟨"l1",some "o1",none⟩] [⟨"r1", "o1"⟩]) :=
    sampleRows_in (by simp) (by simp)
  have hall : Admitted sampleStep (Possible sampleUniverse) []
      (withLockedSet [] [.order "O1"] fun _ => sampleRows [] []) sampleWorlds :=
    ⟨⟨by decide,fun _ => hiss,by simp [sampleWorld]⟩,
      ⟨by decide,fun _ => hres,by simp [sampleWorld]⟩,
      ⟨by decide,fun _ => hres,by simp [sampleWorld]⟩,trivial⟩
  obtain ⟨-,hbou,hend⟩ := (lockSets_ordered_and_bounded (fun key => key.length)
    ([] : List (LockPlanContributor Unit))).2.2.2 ⟨3,true⟩ [.order "O1"]
    (fun _ => sampleRows [] []) sampleUniverse rfl (by simp) (by simp [SubjectIn]; decide)
    (fun _ => hno) _ _ (.play Run.nil sampleWorlds hall)
  exact ⟨_,by decide,hbou,hend (by decide)⟩

end SellRight.LockSetSafety
