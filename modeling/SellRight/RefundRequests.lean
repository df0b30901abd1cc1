import SellRight.CreditMath
import SellRight.JsonText
import SellRight.PaymentLedger
import SellRight.RowTable

/-!
# Refund requests

A refund request is worked out against the tables of its order: the payment
it returns, the units it takes from each line, their money and its shipping.
Nothing is written here. Credit funding, unit values and staged edits are read
by code of their own, which stays open.
-/

namespace SellRight.RefundRequests

open CreditMath JsonText OrderLifecycle PaymentLedger RowTable

/-- Columns of an order read and written by refunds. -/
structure Order where
  id : String
  state : OrderState
  deleted : Bool
  /-- Imported financial history still needs reconciliation. -/
  reconciliationRequired : Bool
  currency : String

/-- Row of the order line table. -/
structure OrderLine where
  (id orderId : String)
  (quantity editRemovedQty : ℤ)
  /-- Units placed in the source system of an imported line. -/
  placedQuantity : Option ℤ
  (unitPrice lineTotal : ℤ)

/-- Row of the refund line table. -/
structure RefundLine where
  (refundId orderLineId : String)
  (quantity amount : ℤ)
  restock : Bool

/-- Row of the return request table. -/
structure ReturnRequest where
  (id orderId status : String)
  (reason refundId : Option String)

/-- Units of one order line with their restock flag. -/
structure Line where
  orderLineId : String
  quantity : ℤ
  restock : Bool

/-- Row of the return line table. -/
structure ReturnLine where
  returnId : String
  line : Line

/-- Row of the payment attempt table. -/
structure PaymentAttempt where
  (id orderId : String)
  paymentId : Option String
  (operation method : String)
  amount : ℤ
  (currency idempotencyKey fingerprint status : String)
  providerRef : Option String

/-- Tables of one store that refunds read and write. -/
structure Store where
  orders : List Order
  orderLines : List OrderLine
  payments : List Payment
  refunds : List Refund
  refundLines : List RefundLine
  returns : List ReturnRequest
  returnLines : List ReturnLine
  attempts : List PaymentAttempt
  edits : List OrderEdit
  redemptions : List String

/-- Units an order edit removed, with the money they carried. -/
structure EditLine where
  orderLineId : String
  (quantity amount : ℤ)
  deriving DecidableEq

structure RefundRequest where
  (orderId actor idempotencyKey : String)
  paymentId : Option String
  amount : Option ℤ
  lines : List Line
  /-- Units of a full refund go back on the shelf. -/
  restock : Bool
  shippingAmount : Option ℤ
  (reason returnId : Option String)
  /-- Return of merchandise paid with account credit, without cash. -/
  creditMerchandiseReturn : Bool
  (source editId : Option String)
  editLines : List EditLine

/-- Why a request or an outcome is refused. -/
inductive RefundFailure where
  | refused (status : ℕ) (message : String)
  /-- A database constraint or a step in another table failed. -/
  | aborted

/-- Refund value of the units of a line. -/
inductive UnitBasis where
  /-- No unit value is known; the line total is divided. -/
  | legacy
  | unit (cents : ℤ)
  | units (cents : List ℤ)

/-- Rows of an order rewritten by the activation of a staged edit. -/
structure StageActivation where
  state : OrderState
  lines : List OrderLine
  edits : List OrderEdit

/-- Code outside of the refund engine. -/
structure World where
  sha256 : String → String
  localeCompare : String → String → Ordering
  hasCreditEvidence : Store → String → Bool
  /-- Credit-funded units of each line still open to a refund. -/
  availableUnits : Store → String → Option (List (String×List ℕ))
  unitBases : Store → String → Option (List (String×UnitBasis))
  provesCreditReturn : Store → String → List Line → Bool
  creditCurrency : Store → String → Option String
  supportsRefunds : String → Bool
  accountAvailable : Payment → Bool
  stagedEditRemovedUnits : Store → String → String → Option (List (String×ℤ))
  bindPreparedEditRefund : Store → String → String → String → Option (List OrderEdit)
  /-- Activation of the staged edit of an order with credit evidence. -/
  activateStage : Store → String → String → Option StageActivation
  fullCreditMerchandise : Store → String → Bool
  /-- The steps of a settlement in other tables succeed. -/
  settlesElsewhere : Store → String → Bool

/-- The integer is exact as a number. -/
def isSafeInteger (n : ℤ) : Bool := decide (-maxSafeInteger≤n∧n ≤ maxSafeInteger)

/-- Units the customer is billed for. -/
def billedQty (line : OrderLine) : ℤ := line.quantity-line.editRemovedQty

/-- Units of a line open to refunds: the billed units, or the units placed in
the source system when these are more. -/
def refundQuantity (line : OrderLine) : ℤ :=
  match line.placedQuantity with
  | some placed => max (billedQty line) (if isSafeInteger placed then placed else 0)
  | none => max (billedQty line) 0

/-- Member of a canonical request: a text or null. -/
def textOrNull : Option String → Json
  | some text => .str text
  | none => .null

/-- Member of a canonical request: a number or null. -/
def numberOrNull : Option ℤ → Json
  | some n => .num n
  | none => .null

/-- Canonical form of one line. -/
def lineJson (line : Line) : Json :=
  .obj [("orderLineId",.str line.orderLineId),("quantity",.num line.quantity),
    ("restock",.bool line.restock)]

/-- Canonical form of one edit line. -/
def editLineJson (line : EditLine) : Json :=
  .obj [("orderLineId",.str line.orderLineId),("quantity",.num line.quantity),
    ("amount",.num line.amount)]

variable (w : World)

/-- Lines in the order of their identifiers. -/
def sortLines (lines : List Line) : List Line :=
  lines.insertionSort fun a b => w.localeCompare a.orderLineId b.orderLineId≠.gt

/-- Edit lines in the order of their identifiers. -/
def sortEditLines (lines : List EditLine) : List EditLine :=
  lines.insertionSort fun a b => w.localeCompare a.orderLineId b.orderLineId≠.gt

/-- Canonical form of a request. -/
def canonicalRequest (input : RefundRequest) : Json :=
  .obj ([("orderId",.str input.orderId),("paymentId",textOrNull input.paymentId),
      ("amount",numberOrNull input.amount),
      ("lines",.arr ((sortLines w input.lines).map lineJson)),
      ("restock",.bool input.restock),("reason",textOrNull input.reason),
      ("returnId",textOrNull input.returnId),("source",textOrNull input.source)] ++
    (if input.editId.getD "" ≠ "" then [("editId",.str (input.editId.getD ""))] else []) ++
    (if input.creditMerchandiseReturn then [("creditMerchandiseReturn",.bool true)] else []) ++
    (if input.editLines≠[] then
      [("editLines",.arr ((sortEditLines w input.editLines).map editLineJson))] else []))

/-- Digest that binds a key to its request. -/
def requestFingerprint (input : RefundRequest) : String :=
  w.sha256 (stringify (canonicalRequest w input))

/-- A refusal of the given status. -/
def refuse {α : Type} (status : ℕ) (message : String) : Except RefundFailure α :=
  .error (.refused status message)

/-- Checks of a request before any table is read. -/
def checkRequest (input : RefundRequest) : Except RefundFailure Unit :=
  if input.idempotencyKey = "" ∨ 200 < input.idempotencyKey.length then
    refuse 400 "A refund idempotency key is required"
  else if input.editId.getD "" ≠ "" ∧ input.source≠some editRefundSource then
    refuse 400 "Edit identity requires an order edit refund"
  else if input.editLines≠[]∧input.source≠some editRefundSource then
    refuse 400 "Edit refund lines require an order edit refund"
  else if (input.editLines.any fun line =>
      decide (line.orderLineId = "" ∨ line.quantity<1∨line.amount<0) ||
        !isSafeInteger line.quantity || !isSafeInteger line.amount) ∨
      ¬ (input.editLines.map EditLine.orderLineId).Nodup then
    refuse 400 "Invalid order edit refund lines"
  else if input.source=some editRefundSource∧(input.lines≠[] ∨
      input.returnId.getD "" ≠ "" ∨ input.restock∨input.shippingAmount.getD 0≠0 ∨
      input.creditMerchandiseReturn) then
    refuse 409 "Order edit refunds transfer money only"
  else .ok ()

def findOrder (db : Store) (orderId : String) : Option Order :=
  db.orders.find? fun o => decide (o.id=orderId)

/-- The order is locked and open to refunds of this request. -/
def lockOrder (db : Store) (input : RefundRequest) : Except RefundFailure Order :=
  match findOrder db input.orderId with
  | none => refuse 404 "Order not found"
  | some o =>
    if o.deleted then refuse 404 "Order not found"
    else if o.reconciliationRequired then
      refuse 409 "Imported financial history requires reconciliation before changing money."
    else if db.edits.any fun edit =>
        decide (edit.orderId=o.id ∧
          some edit.id≠(if input.source=some editRefundSource then input.editId else none)) &&
          isPendingEditStage edit.settlement then
      refuse 409 "Resolve the prepared order edit before changing its economics."
    else .ok o

/-- Order states in which merchandise is refundable. -/
def refundableStates : List OrderState := [.paid,.partiallyRefunded,.cancelled]

/-- The order admits a return of credit-paid merchandise after a full refund. -/
def creditReturnOf (o : Order) (input : RefundRequest) : Bool :=
  input.creditMerchandiseReturn&&decide (o.state=.refunded)

section
variable (db : Store) (o : Order)

def selectReturn (input : RefundRequest) : Except RefundFailure (Option ReturnRequest) :=
  if input.returnId.getD "" = "" then .ok none
  else
    match db.returns.find? fun rma =>
        decide (some rma.id=input.returnId∧rma.orderId=o.id) with
    | none => refuse 409 "Return already resolved"
    | some rma =>
      if rma.status∈["requested", "approved", "received"]∧rma.refundId=none then
        .ok (some rma)
      else refuse 409 "Return already resolved"

def settledPayments : List Payment :=
  db.payments.filter fun p => decide (p.orderId=o.id∧p.state=.settled)

def selectPayment (input : RefundRequest) : Except RefundFailure Payment :=
  let payments := (settledPayments db o).filter fun p => !p.duplicate
  let selected :=
    if input.paymentId.getD "" ≠ "" then
      (settledPayments db o).find? fun p => decide (some p.id=input.paymentId)
    else
      match payments with
      | [p] => some p
      | _ => none
  match selected with
  | none =>
    refuse 409 (if 1<payments.length then "Select the payment to refund"
      else "No settled payment to refund")
  | some p =>
    if !p.duplicate∧o.state∉refundableStates∧!creditReturnOf o input then
      refuse 409 "Order is not refundable"
    else if p.duplicate∧(input.lines≠[]∨input.returnId.getD "" ≠ "" ∨ input.restock ∨
        input.shippingAmount.getD 0≠0) then
      refuse 409 "A duplicate payment is refunded money-only (no lines, restock, return or shipping)"
    else .ok p

end

section
variable (refunds : List Refund)

/-- Money of a payment reserved by refunds that did not fail. -/
def reservedAmount (paymentId : String) : ℤ :=
  ((refunds.filter fun r => decide (r.paymentId=paymentId∧r.state≠.failed)).map Refund.amount).sum

/-- The refund line reserves units of its order line: its refund is stored, did
not fail and is no refund of an order edit. -/
def reservesUnits (line : RefundLine) : Bool :=
  refunds.any fun r => decide (r.id=line.refundId∧r.state≠.failed) && !isEditRefund r

def reservedQty (refundLines : List RefundLine) (orderLineId : String) : ℤ :=
  ((refundLines.filter fun line =>
    decide (line.orderLineId=orderLineId)&&reservesUnits refunds line).map RefundLine.quantity).sum

end

section
variable (db : Store) (o : Order)

def orderRefunds : List Refund :=
  db.refunds.filter fun r => decide (r.orderId=o.id)

/-- Units of a line that refunds of the order left open. -/
def openUnits (line : OrderLine) : ℤ :=
  refundQuantity line-reservedQty (orderRefunds db o) db.refundLines line.id

def linesOf : List OrderLine :=
  db.orderLines.filter fun line => decide (line.orderId=o.id)

end

/-- The order was paid with account credit and its funding is known. -/
def creditBearing (db : Store) (orderId : String) : Bool :=
  decide (orderId∈db.redemptions)&&w.hasCreditEvidence db orderId

def namedLines (db : Store) (input : RefundRequest) (p : Payment) (rma : Option ReturnRequest) :
    List Line :=
  match rma with
  | some rma =>
    (db.returnLines.filter fun line => decide (line.returnId=rma.id)).map ReturnLine.line
  | none => if p.duplicate then [] else input.lines

/-- Money of a payment that no refund reserves. -/
def availableAmount (db : Store) (o : Order) (p : Payment) : ℤ :=
  p.amount-reservedAmount (orderRefunds db o) p.id

section
variable (db : Store) (o : Order) (input : RefundRequest) (p : Payment) (named : List Line)

/-- A request without lines refunds every open unit. -/
def takesAllLines : Bool :=
  !p.duplicate&&decide (input.source≠some editRefundSource)&&decide (named=[]) &&
    (input.restock||decide (input.amount=none) ||
      decide (input.amount=some (availableAmount db o p)))

/-- A request that takes every open unit names one payment and its whole
balance. -/
def checkAllLines : Except RefundFailure Unit :=
  if takesAllLines db o input p named ∧
      (1<((settledPayments db o).filter fun p => !p.duplicate).length ∨
        (input.amount≠none∧input.amount≠some (availableAmount db o p))) then
    refuse 409 "Choose lines when restocking a partial refund"
  else .ok ()

end

/-- Credit-funded units of the lines, where the order has any and lines are
refunded. -/
def creditUnits (db : Store) (o : Order) (named : List Line) (all : Bool) :
    Except RefundFailure (Option (List (String×List ℕ))) :=
  if creditBearing w db o.id∧(named≠[]∨all) then
    match w.availableUnits db o.id with
    | none => refuse 409 "Refund unit basis, allocation or quantity requires reconciliation"
    | some units => .ok (some units)
  else .ok none

/-- Value stored under a line identifier. -/
def lookupLine {α : Type} (entries : List (String×α)) (orderLineId : String) : Option α :=
  (entries.find? fun entry => decide (entry.1=orderLineId)).map Prod.snd

def allLines (db : Store) (o : Order) (restock : Bool)
    (credit : Option (List (String×List ℕ))) : List Line :=
  ((linesOf db o).map fun line =>
    (⟨line.id,
      match credit with
      | some units =>
        ((lookupLine units line.id).map fun positions => (positions.length : ℤ)).getD 0
      | none => openUnits db o line,restock⟩ : Line)).filter fun line => decide (0<line.quantity)

def selectLines (db : Store) (o : Order) (input : RefundRequest) (p : Payment)
    (named : List Line) (credit : Option (List (String×List ℕ))) : List Line :=
  if takesAllLines db o input p named then allLines db o input.restock credit else named

/-- The selected units of a credit-funded order are known and open. -/
def prepareCreditUnitReturns (credit : Option (List (String×List ℕ))) (lines : List Line) :
    Except RefundFailure Unit :=
  match credit with
  | none => .ok ()
  | some units =>
    if (lines.map Line.orderLineId).Nodup∧lines.all fun line =>
        match lookupLine units line.orderLineId with
        | none => false
        | some positions =>
          isSafeInteger line.quantity&&decide (1≤line.quantity) &&
            decide (line.quantity≤positions.length) then .ok ()
    else refuse 409 "Refund unit basis, allocation or quantity requires reconciliation"

/-- A refunded line with its money. -/
structure LineSnapshot where
  line : Line
  amount : ℤ

/-- Money of the refunded units of a line, in integer cents. -/
def refundLineCashAmount (row : OrderLine) (quantity : ℤ) (basis : UnitBasis) (bearing : Bool) :
    Option ℤ :=
  let amount : Option ℤ :=
    match basis with
    | .legacy =>
      if bearing then none
      else some ⌊(if billedQty row=0 then (row.unitPrice : ℚ)
        else (row.lineTotal : ℚ) / billedQty row)*quantity+1 / 2⌋
    | .unit cents => some (cents*quantity)
    | .units cents =>
      if (cents.length : ℤ)<quantity then none else some (cents.take quantity.toNat).sum
  match amount with
  | none => none
  | some cents => if 0≤cents∧cents ≤ maxCreditCents then some cents else none

/-- Basis of the selected units: credit-funded units are valued at their own
positions. -/
def selectedBasis (credit : Option (List (String×List ℕ))) (line : Line) (basis : UnitBasis) :
    UnitBasis :=
  match basis, credit.bind fun units => lookupLine units line.orderLineId with
  | .units cents, some positions =>
    .units ((positions.take line.quantity.toNat).filterMap fun position => cents[position]?)
  | _, _ => basis

section
variable (db : Store) (o : Order) (credit : Option (List (String×List ℕ)))

/-- Units of a line a request may take. -/
def unitLimit (row : OrderLine) : ℤ :=
  match credit.bind fun units => lookupLine units row.id with
  | some positions => positions.length
  | none => openUnits db o row

/-- Price one selected line. -/
def snapshotLine (bases : List (String×UnitBasis)) (line : Line) : Except RefundFailure LineSnapshot :=
  match (linesOf db o).find? fun row => decide (row.id=line.orderLineId) with
  | none => refuse 409 "Invalid or already reserved refund quantity"
  | some row =>
    if !isSafeInteger line.quantity∨line.quantity<1∨unitLimit db o credit row<line.quantity then
      refuse 409 "Invalid or already reserved refund quantity"
    else
      match refundLineCashAmount row line.quantity
          (selectedBasis credit line ((lookupLine bases row.id).getD .legacy))
          (decide (o.id∈db.redemptions)) with
      | none => refuse 409 "Refund unit basis requires reconciliation"
      | some amount => .ok ⟨line,amount⟩

end

/-- Price the selected lines, each order line at most once. -/
def snapshotLines (db : Store) (o : Order)
    (credit : Option (List (String×List ℕ))) (lines : List Line) :
    Except RefundFailure (List LineSnapshot) :=
  if lines=[] then .ok []
  else
    match w.unitBases db o.id with
    | none => refuse 409 "Refund unit basis, allocation or quantity requires reconciliation"
    | some bases =>
      if (lines.map Line.orderLineId).Nodup then lines.mapM (snapshotLine db o credit bases)
      else refuse 409 "Invalid or already reserved refund quantity"

/-- Units of a line that the edit of a refund removed. -/
def removableUnits (staged : Option (List (String×ℤ))) (row : OrderLine) : ℤ :=
  match staged with
  | some units => (lookupLine units row.id).getD 0
  | none => row.editRemovedQty

def checkEditLines (db : Store) (o : Order) (input : RefundRequest) :
    Except RefundFailure (List LineSnapshot) :=
  if input.editLines=[] then .ok []
  else
    let staged : Except RefundFailure (Option (List (String×ℤ))) :=
      if input.editId.getD "" = "" then .ok none
      else
        match w.stagedEditRemovedUnits db o.id (input.editId.getD "") with
        | none => refuse 409 "Prepared edit is absent."
        | some units => .ok (some units)
    match staged with
    | .error e => .error e
    | .ok staged =>
      input.editLines.mapM fun line =>
        match (linesOf db o).find? fun row => decide (row.id=line.orderLineId) with
        | none => refuse 409 "Order edit refund line exceeds the units the edit removed"
        | some row =>
          if removableUnits staged row<line.quantity then
            refuse 409 "Order edit refund line exceeds the units the edit removed"
          else .ok ⟨⟨line.orderLineId,line.quantity,false⟩,line.amount⟩

structure RefundAmounts where
  (amount itemsAmount shippingAmount : ℤ)

/-- Shipping refunded next to explicit lines. -/
def shippingOf (input : RefundRequest) (explicitLines : Bool) : ℤ :=
  match input.shippingAmount with
  | some shipping => if explicitLines∧isSafeInteger shipping∧0<shipping then shipping else 0
  | none => 0

def amountsOf (input : RefundRequest) (explicitLines : Bool) (available : ℤ)
    (snapshots edits : List LineSnapshot) : RefundAmounts :=
  let itemsAmount := (snapshots.map LineSnapshot.amount).sum+(edits.map LineSnapshot.amount).sum
  let shipping := shippingOf input explicitLines
  ⟨input.amount.getD (if explicitLines then itemsAmount+shipping else available),itemsAmount,
    shipping⟩

/-- The money or the merchandise of a refund may be returned. -/
def authorize (db : Store) (o : Order) (input : RefundRequest) (p : Payment)
    (explicitLines : Bool) (amounts : RefundAmounts) (lines : List Line) :
    Except RefundFailure Unit :=
  if input.creditMerchandiseReturn then
    if p.duplicate∨input.source.getD "" ≠ "" ∨ !explicitLines∨amounts.amount≠0 ∨
        amounts.itemsAmount≠0∨amounts.shippingAmount≠0 ∨
        input.shippingAmount.getD 0≠0∨db.redemptions.count o.id≠1 then
      refuse 409 "Credit merchandise return requires explicit zero-cash allocated quantities"
    else if !w.provesCreditReturn db o.id lines then
      refuse 409 "Credit merchandise allocation requires reconciliation"
    else if w.creditCurrency db o.id≠some o.currency ∨
        (p.currency.getD "" ≠ "" ∧ p.currency≠some o.currency) then
      refuse 409 "Credit merchandise currency differs"
    else .ok ()
  else if !isSafeInteger amounts.amount∨amounts.amount<1 ∨
      availableAmount db o p<amounts.amount then
    refuse 409 "Refund exceeds the payment balance"
  else if !w.supportsRefunds p.method then
    refuse 409 "Payment method does not support refunds"
  else if p.method∈["nmi", "sezzle", "stripe"]∧p.gatewayMode≠some "test" ∧
      p.gatewayMode≠some "live" then
    refuse 409 "Original payment mode is missing; reconcile it before refunding"
  else if p.method∈["nmi", "sezzle"]∧p.gatewayAccount.getD "" = "" then
    refuse 409 "Original merchant account is missing"
  else if p.method∈["nmi", "sezzle"]∧!w.accountAvailable p then
    refuse 503 "Original merchant account is unavailable"
  else .ok ()

/-- Everything a request decides before it writes. -/
structure RefundPlan where
  payment : Payment
  rma : Option ReturnRequest
  lines : List LineSnapshot
  /-- Removed units of an order edit with their money. -/
  edits : List LineSnapshot
  amounts : RefundAmounts

/-- The order is refundable in its state, or the request names a payment. -/
def refundableOrder (o : Order) (input : RefundRequest) : Except RefundFailure Unit :=
  if o.state∈refundableStates∨creditReturnOf o input ∨
      (input.paymentId.getD "" ≠ "" ∧ o.state≠.pendingPayment) then .ok ()
  else refuse 409 "Order is not refundable"

/-- Work a request out against the tables. -/
def planRefund (db : Store) (o : Order) (input : RefundRequest) :
    Except RefundFailure RefundPlan := do
  refundableOrder o input
  let rma ← selectReturn db o input
  let p ← selectPayment db o input
  let named := namedLines db input p rma
  let explicitLines := decide (named≠[])
  checkAllLines db o input p named
  let credit ← creditUnits w db o named (takesAllLines db o input p named)
  let lines := selectLines db o input p named credit
  prepareCreditUnitReturns credit lines
  let snapshots ← snapshotLines w db o credit lines
  let edits ← checkEditLines w db o input
  let amounts := amountsOf input explicitLines (availableAmount db o p) snapshots edits
  if input.source=some editRefundSource∧input.amount≠none ∧
      input.amount.getD 0<amounts.itemsAmount then
    refuse 409 "Order edit refund lines exceed the refund amount"
  authorize w db o input p explicitLines amounts lines
  return ⟨p,rma,snapshots,edits,amounts⟩

end SellRight.RefundRequests
