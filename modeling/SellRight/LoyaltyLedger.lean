import SellRight.LegacyTotals
import SellRight.RunHistory

/-!
# Loyalty ledger

Rows of a store's loyalty ledger, and the posting that brings the rows of one order in
line with the share of its money that was given back.
-/

namespace SellRight.LoyaltyLedger

open LegacyTotals

/-- Kind of a ledger row. -/
inductive LoyaltyKind where
  | earn | redeem | reverse | adjust | expire
  deriving DecidableEq

/-- Unique key of a row in its store. -/
inductive SourceRef where
  | restore (source : String)
  | earn (source : String)
  | expire (customerId : String) (now : ℤ)
  | other (text : String)
  deriving DecidableEq

/-- Row of the ledger. -/
structure LoyaltyRow where
  customerId : String
  orderId : Option String
  kind : LoyaltyKind
  points : ℤ
  /-- Part of a reversal that the balance did not cover. -/
  shortfall : ℤ := 0
  reason : String
  sourceRef : SourceRef
  expiresAt : Option ℤ := none
  createdAt : ℤ

/-- What a customer can spend, and the expired points not written off yet. -/
structure LoyaltyBalance where
  (pendingExpiry available : ℤ)

/-- Readers of other rows. -/
structure World where
  /-- Balance of a customer, from the ledger and the orders the customer owns. -/
  loyaltyBalance : List LoyaltyRow → String → ℤ → LoyaltyBalance
  expiryDays : Option ℤ

/-- Arguments of a reconciliation. -/
structure Input where
  orderId : String
  (num den : ℚ)
  sourceRef : String
  /-- Settings handed in by the caller; those of the store are read without. -/
  settings : Option (Option ℤ)
  now : ℤ

variable (rows : List LoyaltyRow)

/-- Insert a row unless its key is taken. -/
def insertRow (row : LoyaltyRow) : List LoyaltyRow :=
  if row.sourceRef∈rows.map LoyaltyRow.sourceRef then rows else rows++[row]

/-- Share of a total for a share of the money. -/
def proportionalTarget (total : ℤ) (num den : ℚ) : ℤ :=
  if ¬ 0<total∨¬ 0<den∨¬ 0<num then 0
  else if den≤num then total
  else roundHalfUp (total*num / den)

section
variable (r : LoyaltyRow)

/-- Points a row of an order redeemed. -/
def LoyaltyRow.redeemed : ℤ := if r.kind=.redeem then -r.points else 0

/-- Redeemed points a row gave back. -/
def LoyaltyRow.restored : ℤ :=
  if r.kind=.reverse∧r.reason = "redeem_restore" then r.points else 0

/-- Points a row earned, those of an edit as intended. -/
def LoyaltyRow.earned : ℤ :=
  if r.kind=.earn then r.points
  else if r.kind=.adjust∧r.reason = "order_edit_earn" then r.points-r.shortfall
  else 0

/-- Earned points a row was meant to take back. -/
def LoyaltyRow.earnReversed : ℤ :=
  if r.kind=.reverse∧r.reason = "earn_reversal" then -r.points+r.shortfall else 0

end

/-- Sum of a measure over the rows of an order. -/
def total (f : LoyaltyRow → ℤ) (orderId : String) (rows : List LoyaltyRow) : ℤ :=
  ((rows.filter fun r => decide (r.orderId=some orderId)).map f).sum

/-- Points an order earned. -/
def earnedTotal (orderId : String) (rows : List LoyaltyRow) : ℤ :=
  max 0 (total LoyaltyRow.earned orderId rows)

/-- Time at which new points expire. -/
def expiryFrom (now : ℤ) (days : Option ℤ) : Option ℤ :=
  (days.filter fun d => decide (d≠0)).map fun d => now+d*86400000

/-- Redeemed points still to be given back. -/
def restoreDelta (i : Input) : ℤ :=
  proportionalTarget (total LoyaltyRow.redeemed i.orderId rows) i.num i.den -
    total LoyaltyRow.restored i.orderId rows

/-- Earned points still to be taken back. -/
def earnDelta (i : Input) : ℤ :=
  proportionalTarget (earnedTotal i.orderId rows) i.num i.den -
    total LoyaltyRow.earnReversed i.orderId rows

section
variable (w : World) (rows : List LoyaltyRow)

/-- Row that gives redeemed points back. -/
def restoreRow (i : Input) (customerId : String) : LoyaltyRow :=
  { customerId := customerId,orderId := some i.orderId,kind := .reverse
    points := restoreDelta rows i, reason := "redeem_restore", sourceRef := .restore i.sourceRef
    expiresAt := expiryFrom i.now (i.settings.getD w.expiryDays),createdAt := i.now}

/-- Rows after the restore. -/
def postRestore (i : Input) (customerId : String) : List LoyaltyRow :=
  if 0<restoreDelta rows i then insertRow rows (restoreRow w rows i customerId) else rows

/-- Write off expired points. -/
def postExpiry (customerId : String) (now : ℤ) : List LoyaltyRow :=
  let pending := (w.loyaltyBalance rows customerId now).pendingExpiry
  if pending≤0 then rows
  else insertRow rows
    { customerId := customerId,orderId := none,kind := .expire,points := -pending
      reason := "points_expired", sourceRef := .expire customerId now, createdAt := now}

section
variable (i : Input) (customerId : String) (delta : ℤ)

/-- Row that takes earned points back; what the balance lacks is its shortfall. -/
def reversalRow : LoyaltyRow :=
  let posted := min delta (max 0 (w.loyaltyBalance rows customerId i.now).available)
  { customerId := customerId,orderId := some i.orderId,kind := .reverse,points := -posted
    shortfall := delta-posted, reason := "earn_reversal", sourceRef := .earn i.sourceRef
    createdAt := i.now+1}

/-- Rows after the reversal of a number of earned points. -/
def postReversal : List LoyaltyRow :=
  if 0<delta then
    let expired := postExpiry w rows customerId i.now
    insertRow expired (reversalRow w expired i customerId delta)
  else rows

end

end

/-- Points a reconciliation gave back and took back. -/
structure Posted where
  (restored reversed shortfall : ℤ)

/-- The key of a row is not taken. -/
def fresh (ref : SourceRef) : Bool :=
  decide (ref∉rows.map LoyaltyRow.sourceRef)

/-- Bring the rows of an order in line with a share of its money, under the lock of the
customer. The sums are those of the rows before. -/
def reconcileOrderLoyalty (w : World) (rows : List LoyaltyRow) (i : Input) :
    Posted×List LoyaltyRow :=
  match rows.find? fun r => decide (r.orderId=some i.orderId) with
  | none => (⟨0,0,0⟩,rows)
  | some row =>
    let restored := postRestore w rows i row.customerId
    let expired := postExpiry w restored row.customerId i.now
    let reversal := reversalRow w expired i row.customerId (earnDelta rows i)
    let reverses := decide (0<earnDelta rows i)&&fresh expired reversal.sourceRef
    (⟨if 0<restoreDelta rows i∧fresh rows (.restore i.sourceRef) then restoreDelta rows i else 0,
      if reverses then -reversal.points else 0,if reverses then reversal.shortfall else 0⟩,
      postReversal w restored i row.customerId (earnDelta rows i))

/-- Postings to a store's ledger. -/
inductive Action where
  | reconcile (input : Input)
  | post (row : LoyaltyRow)

/-- Carry out a posting. -/
def step (w : World) (rows : List LoyaltyRow) : Action → Posted×List LoyaltyRow
  | .reconcile input => reconcileOrderLoyalty w rows input
  | .post row => (⟨0,0,0⟩,insertRow rows row)

end SellRight.LoyaltyLedger
