import SellRight.StockStore

/-!
# Shipping routes and stock writes

The admin routes that ship orders, import tracking numbers and write the units
on hand, over the stock tables with the fulfilment rows and the stock of each
location. Every route runs under the lock of its order or stock row and is one
step; one order of a bulk request and one row of a tracking file are
transactions of their own kind. Fulfilment rows stand oldest first.
-/

namespace SellRight.StockDesk

open RowTable OrderLifecycle StockStore

inductive FulfillmentState where
  | pending | shipped | delivered | cancelled
  deriving DecidableEq

def FulfillmentState.text : FulfillmentState → String
  | .pending => "Pending"
  | .shipped => "Shipped"
  | .delivered => "Delivered"
  | .cancelled => "Cancelled"

def orderText : OrderState → String
  | .pendingPayment => "PendingPayment"
  | .paid => "Paid"
  | .partiallyRefunded => "PartiallyRefunded"
  | .refunded => "Refunded"
  | .cancelled => "Cancelled"

/-- A fulfilment row with its lines. -/
structure Fulfillment where
  id : ℕ
  orderId : String
  state : FulfillmentState
  (trackingCode carrier locationId : Option String)
  lines : List FulfillmentItem

structure Location where
  id : String
  enabled : Bool

structure StockLocation where
  (variantId locationId : String)
  onHand : ℕ

/-- A row of the movement ledger that an admin stock route wrote. -/
structure Adjustment where
  variantId : String
  delta : ℤ
  reason : String

/-- The tables of one store. Movements of orders stand among the stock tables. -/
structure Desk where
  store : Store
  fulfillments : List Fulfillment
  nextFulfillment : ℕ
  locations : List Location
  stockLocations : List StockLocation
  adjustments : List Adjustment
  (deletedVariants trashedOrders quarantinedOrders : List String)

/-- Units on hand of a variant, none without a stock row. -/
def onHandOf (s : Store) (variantId : String) : ℕ :=
  ((s.stock.find? fun row => decide (row.variantId=variantId)).map StockRow.onHand).getD 0

def reconciliationRequired : String :=
  "Imported financial history requires reconciliation before changing money."

variable (d : Desk)

/-- The newest fulfilment of an order. -/
def latest (orderId : String) : Option Fulfillment :=
  (d.fulfillments.filter fun f => decide (f.orderId=orderId)).getLast?

/-- State a whole order is moved to. -/
inductive Target where
  | shipped | delivered
  deriving DecidableEq

def Target.state : Target → FulfillmentState
  | .shipped => .shipped
  | .delivered => .delivered

/-- A fulfilment is in a state. -/
def isIn (existing : Option Fulfillment) (state : FulfillmentState) : Bool :=
  existing.any fun f => decide (f.state=state)

/-- Why a whole order is not moved. The text starts with `subject`. -/
def wholeRefusal (subject : String) (order : Order) (existing : Option Fulfillment)
    (target : Target) : Option String :=
  if order.id∈d.quarantinedOrders then some reconciliationRequired
  else if !isShippable order then
    some (subject ++ "not fulfillable in state " ++ orderText order.state)
  else if isIn existing .delivered&&decide (target=.shipped) then
    some "cannot move fulfillment from Delivered back to Shipped"
  else if decide (target=.delivered) && !isIn existing .shipped then
    some (subject ++ "not fulfillable in state " ++ (existing.elim "Unfulfilled" fun f => f.state.text))
  else none

/-- The order moves to shipped for the first time. -/
def advancingToShipped (existing : Option Fulfillment) (target : Target) : Bool :=
  decide (target=.shipped)&&(existing.isNone||isIn existing .pending)

/-- Insert a fulfilment row. -/
def addFulfillment (orderId : String) (state : FulfillmentState)
    (trackingCode carrier locationId : Option String) (lines : List FulfillmentItem) : Desk :=
  {d with
    fulfillments := d.fulfillments ++
      [⟨d.nextFulfillment,orderId,state,trackingCode,carrier,locationId,lines⟩]
    nextFulfillment := d.nextFulfillment+1}

/-- Write state and tracking of a fulfilment row, keeping what is not given. -/
def writeFulfillment (id : ℕ) (state : FulfillmentState)
    (trackingCode carrier : Option String) : Desk :=
  { d with fulfillments := updateWhere (fun f => decide (f.id=id)) (fun f => {f with
      state
      trackingCode := trackingCode.or f.trackingCode
      carrier := carrier.or f.carrier}) d.fulfillments}

/-- Record the move of a whole order on its newest fulfilment, or on a new one. -/
def recordWhole (orderId : String) (existing : Option Fulfillment) (target : Target)
    (trackingCode carrier : Option String) : Desk :=
  match existing with
  | some f => writeFulfillment d f.id target.state trackingCode carrier
  | none => addFulfillment d orderId target.state trackingCode carrier none []

/-- The open units of an order ship on its first move to shipped. -/
def shipOpen (orderId : String) (target : Target) : StockResult Store :=
  if advancingToShipped (latest d orderId) target then StockStore.fulfill d.store orderId
  else .ok d.store

section
variable (d : Desk) (orderId : String) (target : Target) (trackingCode carrier : Option String)

/-- Move a whole order to shipped or delivered. -/
def shipWhole (subject : String) : StockResult Desk := do
  let order ← (findOrder d.store orderId).mapError fun _ => .refused (subject ++ "not found")
  match wholeRefusal d subject order (latest d orderId) target with
  | some text => .error (.refused text)
  | none =>
    let store ← shipOpen d orderId target
    return {recordWhole d orderId (latest d orderId) target trackingCode carrier with store}

/-- Fulfil one order. -/
def fulfill : StockResult Desk :=
  shipWhole d orderId target trackingCode carrier "order "

/-- Fulfil one order of a bulk request, whose refusal is one result of the
batch. -/
def bulkFulfill : StockResult Desk :=
  shipWhole d orderId target trackingCode carrier ""

end

/-- A shipment of selected units. -/
structure ShipmentBody where
  lines : List FulfillmentItem
  (locationId trackingCode carrier : Option String)

/-- Why selected units are not shipped, before the lines are read. -/
def partialRefusal (order : Order) (body : ShipmentBody) : Option String :=
  if order.id∈d.quarantinedOrders then some reconciliationRequired
  else if !isShippable order then
    some ("order not fulfillable in state " ++ orderText order.state)
  else if body.locationId.any fun id => !d.locations.any fun location =>
      decide (location.id=id)&&location.enabled then
    some "location not found or disabled"
  else none

/-- Take the units of a line from the stock of a location. -/
def takeFromLocation (lines : List OrderLine) (locationId : String) (rows : List StockLocation)
    (item : FulfillmentItem) : List StockLocation :=
  match (lines.find? fun line => decide (line.id=item.orderLineId)).bind OrderLine.variantId with
  | some variantId => updateWhere
      (fun row => decide (row.variantId=variantId)&&decide (row.locationId=locationId))
      (fun row => {row with onHand := row.onHand-item.quantity}) rows
  | none => rows

/-- Ship selected units of an order as a fulfilment of their own. -/
def createFulfillment (orderId : String) (body : ShipmentBody) : StockResult Desk := do
  let order ← findOrder d.store orderId
  match partialRefusal d order body with
  | some text => .error (.refused text)
  | none =>
    let store ← StockStore.createFulfillment d.store orderId body.lines
    return {addFulfillment d orderId .shipped body.trackingCode body.carrier body.locationId
        body.lines with
      store
      stockLocations := match body.locationId with
        | some id => body.lines.foldl (takeFromLocation (linesOf d.store orderId) id)
            d.stockLocations
        | none => d.stockLocations}

inductive TrackingStatus where
  | ready | updateTracking | alreadyShipped | notShippable | nothingToShip

/-- Fulfilments of an order that are not cancelled, newest first. -/
def activeFulfillments (orderId : String) : List Fulfillment :=
  (d.fulfillments.filter fun f => decide (f.orderId=orderId)&&decide (f.state≠.cancelled)).reverse

def upper (text : String) : List Char := text.toList.map Char.toUpper

def hasOpenUnits (s : Store) (orderId : String) : Bool :=
  (linesOf s orderId).any fun line => decide (0<line.openQty)

/-- Classify a row of a tracking file against its order. -/
def classifyTrackingRow (order : Order) (tracking : String) : TrackingStatus×String :=
  let active := activeFulfillments d order.id
  if order.id∈d.trashedOrders then (.notShippable,"order is in the trash")
  else if !isShippable order then (.notShippable,if order.state=.pendingPayment then
      "not paid yet" else "not shippable (" ++ orderText order.state ++ ")")
  else if active.any fun f => decide (upper (f.trackingCode.getD "")=upper tracking) &&
      decide (f.state≠.pending) then
    (.alreadyShipped,"this tracking number is already on the order")
  else if hasOpenUnits d.store order.id then (.ready,"ships remaining items")
  else if isIn active.head? .pending then (.ready,"marks the pending shipment as shipped")
  else if isIn active.head? .shipped then
    (.updateTracking,"replaces tracking " ++ ((active.head?.bind Fulfillment.trackingCode).getD "(none)"))
  else if isIn active.head? .delivered then (.nothingToShip,"already delivered")
  else (.nothingToShip,"nothing left to ship")

/-- Mark the newest active fulfilment in a state as shipped with its tracking
number. -/
def markShipped (orderId : String) (state : FulfillmentState) (tracking : String)
    (carrier : Option String) : Desk :=
  match (activeFulfillments d orderId).find? fun f => decide (f.state=state) with
  | some f => {d with
      fulfillments := updateWhere (fun row => decide (row.id=f.id))
        (fun row => {row with state := .shipped,trackingCode := some tracking,carrier})
        d.fulfillments}
  | none => d

/-- Lines of the shipment of everything that is open. -/
def remainingItems (s : Store) (orderId : String) : List FulfillmentItem :=
  ((linesOf s orderId).filter fun line => decide (0<line.openQty)).map fun line =>
    ⟨line.id,line.openQty⟩

/-- Import one row of a tracking file; a row that is not importable is
skipped. -/
def importTracking (orderId tracking : String) (carrier : Option String) :
    StockResult Desk := do
  let order ← findOrder d.store orderId
  if orderId∈d.quarantinedOrders then .error (.refused reconciliationRequired)
  else match classifyTrackingRow d order tracking with
    | (.ready,_) =>
      if hasOpenUnits d.store orderId then do
        let store ← StockStore.importTracking d.store orderId
        return {addFulfillment d orderId .shipped (some tracking) carrier none
          (remainingItems d.store orderId) with store}
      else return markShipped d orderId .pending tracking carrier
    | (.updateTracking,_) => return markShipped d orderId .shipped tracking carrier
    | (_,text) => .error (.refused text)

/-- Write the units on hand of a variant with the movement that explains it. -/
def putOnHand (reason : String) (d : Desk) (id : String) (onHand : ℕ) : Desk :=
  match d.store.stock.find? fun row => decide (row.variantId=id) with
  | some row => {d with
      store := writeStock d.store id fun old => {old with onHand}
      adjustments := if (onHand : ℤ)-row.onHand=0 then d.adjustments
        else d.adjustments++[⟨id,onHand-row.onHand,reason⟩]}
  | none => {d with
      store := {d.store with stock := d.store.stock++[⟨id,onHand,0⟩]}
      adjustments := d.adjustments++[⟨id,onHand,reason⟩]}

/-- Set the units on hand of a variant, unless they changed since they were
shown. -/
def setStock (id : String) (onHand : ℕ) (expectedOnHand : Option ℕ) : StockResult Desk :=
  if expectedOnHand.any fun expected => decide (onHandOf d.store id≠expected) then
    .error (.refused "Stock changed since you opened it")
  else if id∈d.store.stock.map StockRow.variantId∨id∈d.store.variants.map Variant.id then
    .ok (putOnHand "admin_adjust" d id onHand)
  else .error (.refused "variant not found")

/-- Set the units on hand of many variants, all or none; the last write of a
variant wins. -/
def setStockBulk (items : List (String×ℕ)) : StockResult Desk :=
  let ids := (items.map Prod.fst).eraseDups
  let missing := ids.filter fun id => !d.store.variants.any fun variant =>
    decide (variant.id=id)&&decide (id∉d.deletedVariants)
  if missing≠[] then .error (.refused ("variant(s) not found: " ++ ", ".intercalate missing))
  else .ok ((ids.insertionSort fun x y => x.toLower≤y.toLower).foldl (fun d id =>
    putOnHand "admin_bulk_adjust" d id
      (((items.filter fun item => decide (item.1=id)).getLast?.map Prod.snd).getD 0)) d)

/-- Adjust the units on hand of a variant, with a reason. -/
def adjustStock (id : String) (delta : ℤ) (reason : String) : StockResult Desk :=
  let noted := d.adjustments++[⟨id,delta,reason⟩]
  if delta=0 then .error (.refused "delta must be non-zero")
  else match d.store.stock.find? fun row => decide (row.variantId=id) with
    | none =>
      if id∉d.store.variants.map Variant.id then .error (.refused "variant not found")
      else if delta<0 then
        .error (.refused "adjustment would take on-hand stock negative")
      else .ok {d with
        store := {d.store with stock := d.store.stock++[⟨id,delta.toNat,0⟩]}
        adjustments := noted}
    | some row =>
      if (row.onHand : ℤ)+delta<0 then
        .error (.refused "adjustment would take on-hand stock negative")
      else .ok {d with
        store := writeStock d.store id fun old =>
          {old with onHand := ((row.onHand : ℤ)+delta).toNat}
        adjustments := noted}

/-- One operation of the desk. -/
inductive DeskAction where
  | fulfill (orderId : String) (target : Target) (trackingCode carrier : Option String)
  | bulkFulfill (orderId : String) (target : Target) (trackingCode carrier : Option String)
  | createFulfillment (orderId : String) (body : ShipmentBody)
  | importTracking (orderId tracking : String) (carrier : Option String)
  | setStock (id : String) (onHand : ℕ) (expectedOnHand : Option ℕ)
  | setStockBulk (items : List (String×ℕ))
  | adjustStock (id : String) (delta : ℤ) (reason : String)
  | place (input : Placement)
  | editVariant (id : String) (enabled isPreOrder : Bool) (fulfillmentType : FulfillmentType)
  | advanceOrder (orderId : String) (state : OrderState)
  | requestRefund (request : RefundRequest)
  | failRefund (refundId : String)
  | settleRefund (refundId : String) (proven : Bool)

/-- An operation of the stock tables alone. -/
def onStore (result : StockResult Store) : StockResult Desk :=
  result.map fun store => {d with store}

/-- Tables after an operation. -/
def runDesk : DeskAction → StockResult Desk
  | .fulfill orderId target trackingCode carrier => fulfill d orderId target trackingCode carrier
  | .bulkFulfill orderId target trackingCode carrier =>
    bulkFulfill d orderId target trackingCode carrier
  | .createFulfillment orderId body => createFulfillment d orderId body
  | .importTracking orderId tracking carrier => importTracking d orderId tracking carrier
  | .setStock id onHand expectedOnHand => setStock d id onHand expectedOnHand
  | .setStockBulk items => setStockBulk d items
  | .adjustStock id delta reason => adjustStock d id delta reason
  | .place input => onStore d (runStock d.store (.place input))
  | .editVariant id enabled isPreOrder kind =>
    onStore d (runStock d.store (.editVariant id enabled isPreOrder kind))
  | .advanceOrder orderId state => onStore d (runStock d.store (.advanceOrder orderId state))
  | .requestRefund request => onStore d (runStock d.store (.requestRefund request))
  | .failRefund refundId => onStore d (runStock d.store (.failRefund refundId))
  | .settleRefund refundId proven => onStore d (runStock d.store (.settleRefund refundId proven))

/-- One atomic step: a refused operation leaves the tables as they were. -/
def deskStep (action : DeskAction) : StockResult Unit×Desk :=
  match runDesk d action with
  | .ok next => (.ok (),next)
  | .error error => (.error error,d)

end SellRight.StockDesk
