import Mathlib.Data.Prod.Lex
import SellRight.RunHistory

/-!
# Planning, taking and verifying a lock set

`withLockedSet` plans the rows its subjects touch, opens a transaction, takes
the purchase advisory locks, the licence rows and the order rows of the plan,
plans again under these locks, takes the reservation rows and runs the
caller's function. A plan that grew meanwhile, a deadlock or a lock timeout
restarts it. Every planning statement reads a snapshot of its own, which other
transactions may have changed since the one before.
-/

namespace SellRight.LockSets

open RunHistory

/-- StoreKit purchase named by its store, environment and original transaction. -/
structure PurchaseId where
  (storeId environment originalTransactionId : String)

/-- Text hashed to the advisory lock of a purchase. -/
def purchaseLockKey (p : PurchaseId) : String :=
  p.storeId ++ ":" ++ p.environment ++ ":" ++ p.originalTransactionId

/-- Rows of a customer that a subject names. -/
inductive CustomerScope
  | all
  | orders

/-- What a caller wants locked. -/
inductive LockSubject
  | order (orderId : String)
  | notification (purchase : PurchaseId)
  | link (purchases : List PurchaseId)
  | customer (customerId : String) (scope : CustomerScope)
  | checkout (sourceLicenseId : Option String)
  | loyalty (customerId : String)

/-- Rows a subject, a contributor or a whole set plans to lock. -/
structure LockPlanContribution where
  /-- Purchases locked by advisory locks, class L1. -/
  purchases : List PurchaseId
  (licenseIds orderIds : List String)
  /-- Reservation rows, class L4; empty where the source leaves them out. -/
  reservationIds : List String

/-- Plan of no rows. -/
def EMPTY : LockPlanContribution := ⟨[],[],[],[]⟩

/-- Spelling of an identifier that decides which row it names. -/
def canonical (id : String) : String := String.ofList (id.toList.map Char.toLower)

/-- Comparison of two identifiers as the database compares them. -/
def sameId (left right : String) : Bool := canonical left == canonical right

/-- Both plans together; identifiers are kept once for each raw spelling. -/
def union (a b : LockPlanContribution) : LockPlanContribution where
  purchases := a.purchases++b.purchases
  licenseIds := (a.licenseIds++b.licenseIds).eraseDups
  orderIds := (a.orderIds++b.orderIds).eraseDups
  reservationIds := (a.reservationIds++b.reservationIds).eraseDups

/-- Every canonical identifier of the first list is one of the second. -/
def idsWithin (a b : List String) : Bool :=
  a.all fun id => (b.map canonical).contains (canonical id)

/-- Every row of the first plan is a row of the second, up to spelling. -/
def subsetOf (a b : LockPlanContribution) : Bool :=
  idsWithin a.licenseIds b.licenseIds&&idsWithin a.orderIds b.orderIds &&
    idsWithin a.reservationIds b.reservationIds &&
    a.purchases.all fun p => (b.purchases.map purchaseLockKey).contains (purchaseLockKey p)

/-- Licence columns read by the planner. -/
structure LicenseRow where
  id : String
  (orderId customerId : Option String)

/-- Order columns read by the planner. -/
structure OrderRow where
  id : String
  customerId : Option String
  /-- Whether its metadata holds back a loyalty earn. -/
  deferredEarn : Bool

/-- Reservation columns read by the planner. -/
structure ReservationRow where
  (id orderId : String)

/-- StoreKit purchase columns read by the planner. -/
structure PurchaseRow where
  (environment originalTransactionId : String)
  licenseId : Option String

/-- Snapshot of one store's tables. -/
structure Rows (ω : Type*) where
  licenses : List LicenseRow
  orders : List OrderRow
  reservations : List ReservationRow
  purchases : List PurchaseRow
  others : ω

variable {ω : Type*}

/-- Snapshots met by the successive planning statements of a transaction. -/
abbrev Views (ω : Type*) := ℕ → Rows ω

/-- Whether an optional foreign key holds an identifier. -/
def refersTo (reference : Option String) (id : String) : Bool := reference.any (sameId id)

def boundLicenses (rows : Rows ω) (p : PurchaseId) : List String := (rows.purchases.filter fun r =>
    r.environment == p.environment&&r.originalTransactionId == p.originalTransactionId).filterMap
      fun r => r.licenseId

/-- The purchases and the licences bound to them, one statement a purchase. -/
def planPurchases (views : Views ω) (start : ℕ) (purchases : List PurchaseId) :
    LockPlanContribution×ℕ :=
  (⟨purchases,(purchases.zipIdx start).flatMap fun p => boundLicenses (views p.2) p.1,[],[]⟩,
    start+purchases.length)

/-- Rows one subject touches, with the number of statements read so far. -/
def planOne (views : Views ω) (start : ℕ) : LockSubject → LockPlanContribution×ℕ
  | .order orderId =>
    (⟨[],((views start).licenses.filter fun l => refersTo l.orderId orderId).map (·.id),
      [orderId],[]⟩,start+1)
  | .customer customerId .orders =>
    (⟨[],[],((views start).orders.filter fun o => refersTo o.customerId customerId).map (·.id),
      []⟩,start+1)
  | .customer customerId .all =>
    (⟨[],((views (start+1)).licenses.filter fun l => refersTo l.customerId customerId).map (·.id),
      ((views start).orders.filter fun o => refersTo o.customerId customerId).map (·.id),[]⟩,
      start+2)
  | .loyalty customerId =>
    (⟨[],[],((views start).orders.filter fun o =>
      refersTo o.customerId customerId&&o.deferredEarn).map (·.id),[]⟩,start+1)
  | .checkout sourceLicenseId =>
    (⟨[],(sourceLicenseId.filter fun id => id ≠ "").toList,[],[]⟩,start)
  | .notification purchase => planPurchases views start [purchase]
  | .link purchases => planPurchases views start purchases

/-- Registered extension of the planner: reads snapshots from a statement on
and returns what it adds with the next statement's number. -/
abbrev LockPlanContributor (ω : Type*) := Views ω → ℕ → LockSubject → LockPlanContribution×ℕ

/-- Join one contributor's rows to the plan. -/
def contribute (views : Views ω) (subject : LockSubject) (planned : LockPlanContribution×ℕ)
    (contributor : LockPlanContributor ω) : LockPlanContribution×ℕ :=
  let added := contributor views planned.2 subject
  (union planned.1 added.1,added.2)

variable (contributors : List (LockPlanContributor ω))

/-- Join one subject's rows, and those of every contributor for it. -/
def planSubject (views : Views ω)
    (planned : LockPlanContribution×ℕ) (subject : LockSubject) : LockPlanContribution×ℕ :=
  let own := planOne views planned.2 subject
  contributors.foldl (contribute views subject) (union planned.1 own.1,own.2)

def plannedReservations (rows : Rows ω) (plan : LockPlanContribution) : List String :=
  (rows.reservations.filter fun r => plan.orderIds.any (sameId r.orderId)).map (·.id)

/-- Rows of every subject and contributor, then the reservations of the
planned orders. -/
def planFor (subjects : List LockSubject)
    (views : Views ω) : LockPlanContribution :=
  let planned := subjects.foldl (planSubject contributors views) (EMPTY,0)
  if planned.1.orderIds.isEmpty then planned.1
  else union planned.1 ⟨[],[],[],plannedReservations (views planned.2) planned.1⟩

/-- Lock requested from the database. -/
inductive LockKey
  | purchase (hash : ℤ)
  | license (id : String)
  | order (id : String)
  | reservation (id : String)

/-- Place of a lock in the global order: its class, then its hash or its
canonical identifier. -/
def LockKey.position : LockKey → ℕ ×ₗ ℤ ×ₗ String
  | .purchase hash => toLex (1,toLex (hash, ""))
  | .license id => toLex (2,toLex (0,id))
  | .order id => toLex (3,toLex (0,id))
  | .reservation id => toLex (4,toLex (0,id))

/-- Advisory locks of the purchases: one for each hash, ascending. -/
def acquirePurchaseLocks (hashtextextended : String → ℤ) (purchases : List PurchaseId) :
    List LockKey :=
  let keys := (purchases.map purchaseLockKey).eraseDups
  ((keys.map hashtextextended).eraseDups.insertionSort (· ≤ ·)).map .purchase

/-- Row locks of one table: one statement for each canonical identifier,
ascending. -/
def lockRows (table : String → LockKey) (ids : List String) : List LockKey :=
  ((ids.map canonical).eraseDups.insertionSort (· ≤ ·)).map table

/-- Error the database reports for a statement. -/
inductive DbError
  | deadlockOrSerialization
  | lockTimeout
  | other

/-- Error that ends an attempt. -/
inductive LockError
  | db (error : DbError)
  | setGrew (grown : LockPlanContribution)
  | setUnstable
  | other

/-- Everything one attempt meets outside its own code. -/
structure Surroundings (ω : Type*) where
  /-- Error of a statement before the first lock is requested. -/
  opening : Option DbError
  /-- Error a lock request meets; none once it is granted. -/
  fate : LockKey → Option DbError
  planning : Option DbError
  /-- Snapshots read by the second planning. -/
  views : Views ω
  /-- Error of the caller's function or of the commit, if any. A growth of
  another set taken on the same transaction is one of them. -/
  body : Option LockError

/-- Request locks one after another until one fails. -/
def requestAll (fate : LockKey → Option DbError) : List LockKey → List LockKey×Option DbError
  | [] => ([],none)
  | key::keys =>
    match fate key with
    | some error => ([key],some error)
    | none => (key::(requestAll fate keys).1,(requestAll fate keys).2)

/-- What one attempt did. -/
structure AttemptReport where
  requested : List LockKey
  again : Option LockPlanContribution
  ran : Bool
  /-- Error that rolled the attempt back; none when it committed. -/
  failure : Option LockError

/-- Locks of the classes L1, L2 and L3 of a plan. -/
def firstLocks (hashtextextended : String → ℤ) (plan : LockPlanContribution) : List LockKey :=
  acquirePurchaseLocks hashtextextended plan.purchases++lockRows .license plan.licenseIds ++
    lockRows .order plan.orderIds

/-- Reservation locks of the planned orders, then the caller's function. -/
def finishAttempt (plan again : LockPlanContribution) (world : Surroundings ω)
    (taken : List LockKey) : AttemptReport :=
  let reservations := requestAll world.fate (lockRows .reservation plan.reservationIds)
  match reservations.2 with
  | some error => ⟨taken++reservations.1,some again,false,some (.db error)⟩
  | none => ⟨taken++reservations.1,some again,true,world.body⟩

/-- Plan again under the locks taken so far; growth rolls them back. -/
def verifyAttempt (subjects : List LockSubject)
    (plan : LockPlanContribution) (world : Surroundings ω) (taken : List LockKey) :
    AttemptReport :=
  match world.planning with
  | some error => ⟨taken,none,false,some (.db error)⟩
  | none =>
    let again := planFor contributors subjects world.views
    if subsetOf again plan then finishAttempt plan again world taken
    else ⟨taken,some again,false,some (.setGrew again)⟩

/-- One transaction of `withLockedSet` for a plan. -/
def attemptSet (hashtextextended : String → ℤ) (contributors : List (LockPlanContributor ω))
    (subjects : List LockSubject) (plan : LockPlanContribution) (world : Surroundings ω) :
    AttemptReport :=
  match world.opening with
  | some error => ⟨[],none,false,some (.db error)⟩
  | none =>
    let first := requestAll world.fate (firstLocks hashtextextended plan)
    match first.2 with
    | some error => ⟨first.1,none,false,some (.db error)⟩
    | none => verifyAttempt contributors subjects plan world first.1

structure SetOptions where
  /-- Restarts allowed before the call gives up; three unless the caller says. -/
  maxRestarts : ℕ
  /-- The transaction records money already moved and must commit. -/
  mustCommit : Bool

/-- Variables of the retry loop. -/
structure RetryState where
  plan : LockPlanContribution
  attempt : ℕ
  /-- Restarts after a deadlock or a serialization failure. -/
  transientRetries : ℕ

/-- Where a call stands. -/
inductive SetStatus
  | running (state : RetryState)
  | returned
  | threw (error : LockError)

/-- What the loop does with an attempt: restart, return or throw. -/
def handle (opts : SetOptions) (s : RetryState) : Option LockError → SetStatus
  | none => .returned
  | some (.db .deadlockOrSerialization) =>
    if s.transientRetries ≥ opts.maxRestarts then .threw (.db .deadlockOrSerialization)
    else .running ⟨s.plan,s.attempt+1,s.transientRetries+1⟩
  | some (.setGrew grown) =>
    if opts.mustCommit then .running ⟨union s.plan grown,s.attempt+1,s.transientRetries⟩
    else if s.attempt ≥ opts.maxRestarts then .threw .setUnstable
    else .running ⟨union s.plan grown,s.attempt+1,s.transientRetries⟩
  | some (.db .lockTimeout) =>
    if opts.mustCommit then .threw (.db .lockTimeout)
    else if s.attempt ≥ opts.maxRestarts then .threw .setUnstable
    else .running ⟨s.plan,s.attempt+1,s.transientRetries⟩
  | some error => .threw error

/-- One turn of the retry loop; a call that ended stays ended. -/
def loopStep (hashtextextended : String → ℤ) (opts : SetOptions)
    (contributors : List (LockPlanContributor ω)) (subjects : List LockSubject)
    (status : SetStatus) (world : Surroundings ω) : Option AttemptReport×SetStatus :=
  match status with
  | .running s =>
    let report := attemptSet hashtextextended contributors subjects s.plan world
    (some report,handle opts s report.failure)
  | ended => (none,ended)

/-- A call that planned its subjects from a first set of snapshots. -/
def withLockedSet (subjects : List LockSubject)
    (views : Views ω) : SetStatus :=
  .running ⟨planFor contributors subjects views,0,0⟩

end SellRight.LockSets
