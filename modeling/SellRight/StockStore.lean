import SellRight.RowTable
import SellRight.KeyedRecord
import SellRight.OrderLifecycle

/-!
# Stock and order lines

Stock rows, order lines and refunds of one store with the operations that
reserve, release, ship and restock units. Row locks serialise them, so each is
one step; a step that is refused leaves the tables as they were. Guards that
read other tables can only refuse a step and are left out. The list of
reserved lines is written at placement and read by no operation.
-/

namespace SellRight.StockStore

open RowTable KeyedRecord OrderLifecycle

/-- How a variant is delivered. -/
inductive FulfillmentType where
  | physical | digitalDownload | license | updatePass
  deriving DecidableEq

/-- A variant with the flags that decide about reservation. -/
structure Variant where
  (id sku : String)
  (enabled isPreOrder : Bool)
  fulfillmentType : FulfillmentType

structure StockRow where
  variantId : String
  (onHand allocated : ℕ)
  deriving DecidableEq

structure Order where
  id : String
  state : OrderState

structure OrderLine where
  (id orderId : String)
  variantId : Option String
  (quantity fulfilledQty cancelledQty refundedQty editRemovedQty : ℕ)
  /-- Units placed in the source of an imported line. -/
  placedQuantity : Option ℕ
  deriving DecidableEq

/-- Units still to ship. -/
def OrderLine.openQty (line : OrderLine) : ℕ :=
  line.quantity-line.fulfilledQty-line.cancelledQty

structure RefundLine where
  orderLineId : String
  quantity : ℕ
  restock : Bool
  /-- Units that are still part of the order, if the refund froze them. -/
  presentUnits : Option ℕ

/-- Units of a refund line that the stock effects look at. -/
def RefundLine.currentQuantity (line : RefundLine) : ℕ := line.presentUnits.getD line.quantity

structure Refund where
  (id orderId : String)
  state : RefundState
  stockApplied : Bool
  lines : List RefundLine

/-- Why stock moved. -/
inductive MovementReason where
  | fulfillment | refundRestock
  deriving DecidableEq

/-- An entry of the movement ledger. The order line that caused it is kept
for attribution as long as the line exists; the table has no such column. -/
structure Movement where
  variantId : String
  delta : Int
  reason : MovementReason
  (refOrderId orderLineId : Option String)

/-- The tables of one store. -/
structure Store where
  variants : List Variant
  stock : List StockRow
  orders : List Order
  lines : List OrderLine
  refunds : List Refund
  movements : List Movement
  reservedLines : List String

/-- Why a step was refused. -/
inductive StockError where
  /-- Items without enough stock, or not for sale. -/
  | reservation (skus : List String)
  | refused (message : String)
  deriving DecidableEq

def StockError.message : StockError → String
  | .reservation skus => "unavailable or out of stock: " ++ ", ".intercalate skus
  | .refused text => text

/-- Result of a step. -/
abbrev StockResult := Except StockError

variable (s : Store)

/-- Rewrite the line with an id. -/
def writeLine (id : String) (write : OrderLine → OrderLine) : Store :=
  {s with lines := updateWhere (fun line => decide (line.id=id)) write s.lines}

/-- Rewrite the stock row of a variant. -/
def writeStock (variantId : String) (write : StockRow → StockRow) : Store :=
  {s with stock := updateWhere (fun row => decide (row.variantId=variantId)) write s.stock}

section
variable (units : ℕ) (row : StockRow)

/-- Release reserved units, never below zero. -/
def releaseUnits : StockRow :=
  {row with allocated := row.allocated-units}

/-- Ship reserved units, never below zero. -/
def shipUnits : StockRow :=
  {row with onHand := row.onHand-units, allocated := row.allocated-units}

/-- Put units on hand. -/
def restockUnits : StockRow := {row with onHand := row.onHand+units}

end

section
variable (s : Store) (orderId : String)

def linesOf : List OrderLine :=
  s.lines.filter fun line => line.orderId=orderId

/-- Read an order. -/
def findOrder : StockResult Order :=
  match s.orders.find? fun order => order.id=orderId with
  | some order => .ok order
  | none => .error (.refused "order not found")

/-- Write the state of an order. -/
def setState (state : OrderState) : Store := {s with
    orders := updateWhere (fun order => decide (order.id=orderId))
      (fun order => {order with state}) s.orders}

end

/-- An ordered item. -/
structure ReservableItem where
  sku : String
  quantity : ℕ

/-- Items that are not for sale. -/
def validateReservableItems (items : List ReservableItem) (bySku : String → Option Variant) :
    List String :=
  items.flatMap fun item => match bySku item.sku with
    | some variant => if variant.enabled then [] else [item.sku]
    | none => [item.sku]

/-- The units of a variant are reserved at placement. -/
def isReservable (variant : Variant) : Bool :=
  variant.enabled && !variant.isPreOrder&&decide (variant.fulfillmentType=.physical)

/-- An item to reserve, with its variant and its place in the request. -/
structure PhysicalItem where
  item : ReservableItem
  variant : Variant
  index : ℕ

/-- The item at a place of the request, if its units are reserved. -/
def physicalItem (bySku : String → Option Variant) (entry : ReservableItem×ℕ) :
    Option PhysicalItem :=
  match bySku entry.1.sku with
  | some variant => if isReservable variant then some ⟨entry.1,variant,entry.2⟩ else none
  | none => none

/-- Items whose units are reserved. -/
def physicalItems (items : List ReservableItem) (bySku : String → Option Variant) :
    List PhysicalItem := items.zipIdx.filterMap (physicalItem bySku)

/-- A stock row that can reserve units of a variant. -/
def canReserve (variantId : String) (quantity : ℕ) (row : StockRow) : Bool :=
  decide (row.variantId=variantId)&&decide (row.allocated+quantity≤row.onHand)

/-- Reserve one item, noting its place when no row was updated. -/
def reserveItem (state : List StockRow×List ℕ) (entry : PhysicalItem) : List StockRow×List ℕ :=
  let matching := canReserve entry.variant.id entry.item.quantity
  (updateWhere matching (fun row =>
      {row with allocated := row.allocated+entry.item.quantity}) state.1,
    if state.1.countP matching=1 then state.2 else state.2++[entry.index])

/-- Reserve stock for every physical item, or fail with the items that lack
stock. -/
def reserveStockOrThrow (stock : List StockRow) (items : List ReservableItem)
    (bySku : String → Option Variant) : StockResult (Bool×List StockRow) :=
  let physical := (physicalItems items bySku).insertionSort fun x y =>
    x.variant.id.toLower≤y.variant.id.toLower
  let (reserved,failedAt) := physical.foldl reserveItem (stock,[])
  let failed := (failedAt.insertionSort (· ≤ ·)).filterMap fun index =>
    items[index]?.map ReservableItem.sku
  if failedAt.isEmpty then .ok (!physical.isEmpty,reserved)
  else .error (.reservation failed)

structure Placement where
  orderId : String
  markPaid : Bool
  items : List ReservableItem
  lineIds : List String

/-- Variants of the store by stock keeping unit; the last one wins. -/
def variantBySku (sku : String) : Option Variant :=
  (s.variants.filter fun variant => variant.sku=sku).getLast?

def placedLine (orderId : String) (bySku : String → Option Variant)
    (entry : ReservableItem×String) : OrderLine where
  id := entry.2
  orderId := orderId
  variantId := (bySku entry.1.sku).map Variant.id
  quantity := entry.1.quantity
  fulfilledQty := 0
  cancelledQty := 0
  refundedQty := 0
  editRemovedQty := 0
  placedQuantity := none

/-- The item of a new line was reserved. -/
def itemReserved (bySku : String → Option Variant) (entry : ReservableItem×String) : Bool :=
  (bySku entry.1.sku).any isReservable

/-- Place an order: reserve its stock and insert its lines. -/
def place (input : Placement) : StockResult Store := do
  let bySku := variantBySku s
  let blocked := validateReservableItems input.items bySku
  if !blocked.isEmpty then .error (.reservation blocked)
  else
    let (_,stock) ← reserveStockOrThrow s.stock input.items bySku
    if input.orderId∈s.orders.map Order.id∨input.lineIds.length≠input.items.length ∨
        ¬(s.lines.map OrderLine.id++input.lineIds).Nodup then
      .error (.refused "duplicate key value violates unique constraint")
    else
      let entries := input.items.zip input.lineIds
      return {s with
        stock
        orders := s.orders++[⟨input.orderId,if input.markPaid then .paid else .pendingPayment⟩]
        lines := s.lines++entries.map (placedLine input.orderId bySku)
        reservedLines := s.reservedLines.filter (fun id => id∉input.lineIds) ++
          (entries.filter (itemReserved bySku)).map Prod.snd}

/-- Change the flags of a variant. -/
def editVariant (id : String) (enabled isPreOrder : Bool)
    (fulfillmentType : FulfillmentType) : Store :=
  {s with
    variants := updateWhere (fun variant => decide (variant.id=id))
      (fun variant => {variant with enabled, isPreOrder, fulfillmentType}) s.variants}

/-- Move an order along its lifecycle by a payment or a refund. -/
def advanceOrder (orderId : String) (state : OrderState) : StockResult Store := do
  let order ← findOrder s orderId
  if canTransition order.state state∧state≠.cancelled then return setState s orderId state
  else .error (.refused "illegal order transition")

/-- Add the open units of a line to those of its variant. -/
def holdLine (byVariant : Record String ℕ) (line : OrderLine) : Record String ℕ :=
  match line.variantId with
  | some variantId =>
    if 0<line.openQty then
      byVariant.set variantId ((byVariant.get variantId).getD 0+line.openQty)
    else byVariant
  | none => byVariant

/-- Units the lines of an order still hold, per variant. -/
def heldUnits (lines : List OrderLine) : Record String ℕ := lines.foldl holdLine .empty

/-- Release the held units of a stock row's variant. -/
def releaseHeld (byVariant : Record String ℕ) (row : StockRow) : StockRow :=
  match byVariant.get row.variantId with
  | some units => releaseUnits units row
  | none => row

section
variable (s : Store)

/-- Cancel an unpaid order and release what it held, one update per table. -/
def cancelUnpaidOrderInSet (orderId : String) : StockResult Store := do
  let order ← findOrder s orderId
  if order.state≠.pendingPayment then .error (.refused "order is not awaiting payment")
  else
    return setState {s with
      stock := s.stock.map (releaseHeld (heldUnits (linesOf s orderId)))
      lines := updateWhere (fun line => decide (line.orderId=orderId)&&decide (0<line.openQty))
        (fun line => {line with cancelledQty := line.quantity-line.fulfilledQty}) s.lines}
      orderId .cancelled

/-- Cancel the open units of a line and release them. -/
def cancelLine (line : OrderLine) : Store :=
  if 0<line.openQty then
    let cancelled := writeLine s line.id fun row =>
      {row with cancelledQty := row.cancelledQty+line.openQty}
    match line.variantId with
    | some variantId => writeStock cancelled variantId (releaseUnits line.openQty)
    | none => cancelled
  else s

/-- Cancel an unpaid order from the admin. -/
def adminCancel (orderId : String) : StockResult Store := do
  let order ← findOrder s orderId
  if order.state≠.pendingPayment then .error (.refused "paid order — use Refund")
  else return setState ((linesOf s orderId).foldl cancelLine s) orderId .cancelled

/-- Cancel one order of a bulk request. -/
def bulkCancel (orderId : String) : StockResult Store := do
  let order ← findOrder s orderId
  if order.state=.cancelled then .error (.refused "already cancelled")
  else if order.state≠.pendingPayment then .error (.refused "paid order — use Refund")
  else return setState ((linesOf s orderId).foldl cancelLine s) orderId .cancelled

def noteShipped (line : OrderLine) (variantId : String) (units : ℕ) : Store :=
  {s with movements := s.movements++[⟨variantId,-(units : Int),.fulfillment,
      some line.orderId,some line.id⟩]}

def shipLine (line : OrderLine) : Store :=
  if 0<line.openQty then
    let shipped := writeLine s line.id fun row =>
      {row with fulfilledQty := line.quantity-line.cancelledQty}
    match line.variantId with
    | some variantId =>
      noteShipped (writeStock shipped variantId (shipUnits line.openQty)) line variantId line.openQty
    | none => shipped
  else s

end

/-- The order may ship. -/
def isShippable (order : Order) : Bool :=
  decide (order.state=.paid)||decide (order.state=.partiallyRefunded)

/-- Ship a whole order, on its first move to shipped. -/
def fulfill (orderId : String) : StockResult Store := do
  let order ← findOrder s orderId
  if isShippable order then return (linesOf s orderId).foldl shipLine s
  else .error (.refused "order not fulfillable")

/-- Ship the remaining items of an order of a tracking file. -/
def importTracking (orderId : String) : StockResult Store := do
  let order ← findOrder s orderId
  if isShippable order then return (linesOf s orderId).foldl shipLine s
  else .error (.refused "not shippable")

/-- Units of a line to ship. -/
structure FulfillmentItem where
  orderLineId : String
  quantity : ℕ

/-- Lines of a shipment, checked against the order. -/
def checkShipment (lines : List OrderLine) :
    List FulfillmentItem → List String → Option (List (OrderLine×ℕ))
  | [], _ => some []
  | item::items, seen =>
    if item.orderLineId∈seen then none
    else match lines.find? fun line => line.id=item.orderLineId with
      | none => none
      | some line =>
        if line.openQty < item.quantity then none
        else (checkShipment lines items (seen++[item.orderLineId])).map
          fun rest => (line,item.quantity)::rest

def shipPart (entry : OrderLine×ℕ) : Store :=
  let shipped := writeLine s entry.1.id fun row =>
    {row with fulfilledQty := row.fulfilledQty+entry.2}
  match entry.1.variantId with
  | some variantId =>
    noteShipped (writeStock shipped variantId (shipUnits entry.2)) entry.1 variantId entry.2
  | none => shipped

/-- A line whose variant is on pre-order. -/
def onPreOrder (line : OrderLine) : Bool :=
  s.variants.any fun variant => decide (line.variantId=some variant.id)&&variant.isPreOrder

/-- Ship selected units of an order. -/
def createFulfillment (orderId : String) (items : List FulfillmentItem) :
    StockResult Store := do
  let order ← findOrder s orderId
  if !isShippable order then .error (.refused "order not fulfillable")
  else match checkShipment (linesOf s orderId) items [] with
    | none => .error (.refused "duplicate, foreign, or over-quantity line in fulfillment request")
    | some entries =>
      if entries.any fun entry => onPreOrder s entry.1 then
        .error (.refused "pre-order items cannot be fulfilled until the pre-order ends")
      else return entries.foldl shipPart s

/-- Billed units of a line. -/
def billedQty (line : OrderLine) : ℕ := line.quantity-line.editRemovedQty

/-- Units of a line that may be refunded in all. -/
def refundQuantity (line : OrderLine) : ℕ := max (billedQty line) (line.placedQuantity.getD 0)

/-- Units of a line in refunds that did not fail. -/
def reservedQty (orderId lineId : String) : ℕ :=
  (((s.refunds.filter fun refund => decide (refund.orderId=orderId) &&
    decide (refund.state≠.failed)).flatMap Refund.lines).filter
      fun line => line.orderLineId=lineId).map RefundLine.quantity |>.sum

structure RefundRequest where
  (refundId orderId : String)
  lines : List RefundLine
  creditMerchandiseReturn : Bool
  /-- Free credit units of a line, where the order redeemed credit. -/
  availableCreditUnits : String → Option ℕ

/-- The order may be refunded. -/
def isRefundable (order : Order) (request : RefundRequest) : Bool :=
  decide (order.state∈[OrderState.paid,.partiallyRefunded,.cancelled]) ||
    (request.creditMerchandiseReturn&&decide (order.state=.refunded))

def checkRefundLines (s : Store) (request : RefundRequest) : List RefundLine → List String → Bool
  | [], _ => true
  | line::lines, ids =>
    match (linesOf s request.orderId).find? fun row => row.id=line.orderLineId with
    | none => false
    | some row =>
      decide (line.orderLineId∉ids)&&decide (1≤line.quantity) &&
        decide (line.quantity≤(request.availableCreditUnits row.id).getD
          (refundQuantity row-reservedQty s request.orderId row.id)) &&
        checkRefundLines s request lines (ids++[line.orderLineId])

/-- Reserve the units of a refund. -/
def requestRefund (request : RefundRequest) : StockResult Store := do
  let order ← findOrder s request.orderId
  if !isRefundable order request then .error (.refused "Order is not refundable")
  else if !checkRefundLines s request request.lines [] then
    .error (.refused "Invalid or already reserved refund quantity")
  else if request.refundId∈s.refunds.map Refund.id then
    .error (.refused "duplicate key value violates unique constraint")
  else return {s with refunds := s.refunds ++
    [⟨request.refundId,request.orderId,.pending,false,request.lines⟩]}

/-- Apply one refund line: unshipped units are cancelled, the others came
back and may be put on hand. -/
def refundLineEffect (orderId : String) (s : Store) (line : RefundLine) : StockResult Store :=
  match s.lines.find? fun row => row.id=line.orderLineId with
  | none => .error (.refused "Refund line is missing")
  | some row =>
    if row.orderId≠orderId then .error (.refused "Refund line is missing")
    else
      let unfulfilled := min line.currentQuantity row.openQty
      let returned := line.currentQuantity-unfulfilled
      let counted := writeLine s row.id fun old => {old with
        refundedQty := old.refundedQty+line.quantity
        cancelledQty := old.cancelledQty+unfulfilled}
      match row.variantId with
      | none => .ok counted
      | some variantId =>
        let released := if 0<unfulfilled then
            writeStock counted variantId (releaseUnits unfulfilled)
          else counted
        if line.restock∧0<returned then
          let restocked := writeStock released variantId (restockUnits returned)
          .ok {restocked with movements := restocked.movements ++
            [⟨variantId,returned,.refundRestock,some orderId,some row.id⟩]}
        else .ok released

/-- Apply the stock effects of a refund once; a failed proof or line leaves
them pending. -/
def applyRefundStockEffects (refund : Refund) (proven : Bool) : Store :=
  if refund.stockApplied || !proven then s
  else match refund.lines.foldlM (refundLineEffect refund.orderId) s with
    | .error _ => s
    | .ok applied => {applied with
        refunds := updateWhere (fun row => decide (row.id=refund.id))
          (fun row => {row with stockApplied := true}) applied.refunds}

section
variable (s : Store) (refundId : String)

/-- Record that the money of a refund was returned. -/
def markSettled : Store := {s with
    refunds := updateWhere (fun row => decide (row.id=refundId))
      (fun row => {row with state := .settled}) s.refunds}

/-- Settle a refund and apply its stock effects, also on a repeated call. -/
def settleRefund (proven : Bool) : StockResult Store :=
  match s.refunds.find? fun refund => refund.id=refundId with
  | none => .error (.refused "Refund reservation requires reconciliation")
  | some refund =>
    if refund.state=.failed then .error (.refused "Refund failed")
    else .ok (applyRefundStockEffects (markSettled s refundId) refund proven)

def failRefund : Store := {s with
    refunds := updateWhere
      (fun refund => decide (refund.id=refundId)&&decide (refund.state=.pending))
      (fun refund => {refund with state := .failed}) s.refunds}

end

/-- Retire the reservation of a line. -/
def purgeLine (line : OrderLine) : Store :=
  match line.variantId with
  | some variantId =>
    if 0<line.openQty then writeStock s variantId (releaseUnits line.openQty) else s
  | none => s

/-- Delete an order with its lines and refunds. -/
def purgeOrderInSet (orderId : String) : Store :=
  let retired := (linesOf s orderId).foldl purgeLine s
  {retired with
    orders := retired.orders.filter fun order => order.id≠orderId
    lines := retired.lines.filter fun line => line.orderId≠orderId
    refunds := retired.refunds.filter fun refund => refund.orderId≠orderId
    movements := updateWhere (fun movement => decide (movement.refOrderId=some orderId))
      (fun movement => {movement with refOrderId := none, orderLineId := none}) retired.movements}

/-- One operation on the tables. -/
inductive StockAction where
  | place (input : Placement)
  | editVariant (id : String) (enabled isPreOrder : Bool) (fulfillmentType : FulfillmentType)
  | advanceOrder (orderId : String) (state : OrderState)
  | cancelUnpaid (orderId : String)
  | adminCancel (orderId : String)
  | bulkCancel (orderId : String)
  | fulfill (orderId : String)
  | createFulfillment (orderId : String) (items : List FulfillmentItem)
  | importTracking (orderId : String)
  | requestRefund (request : RefundRequest)
  | failRefund (refundId : String)
  | settleRefund (refundId : String) (proven : Bool)
  | purge (orderId : String)

/-- Tables after an operation. -/
def runStock : StockAction → StockResult Store
  | .place input => place s input
  | .editVariant id enabled isPreOrder kind => .ok (editVariant s id enabled isPreOrder kind)
  | .advanceOrder orderId state => advanceOrder s orderId state
  | .cancelUnpaid orderId => cancelUnpaidOrderInSet s orderId
  | .adminCancel orderId => adminCancel s orderId
  | .bulkCancel orderId => bulkCancel s orderId
  | .fulfill orderId => fulfill s orderId
  | .createFulfillment orderId items => createFulfillment s orderId items
  | .importTracking orderId => importTracking s orderId
  | .requestRefund request => requestRefund s request
  | .failRefund refundId => .ok (failRefund s refundId)
  | .settleRefund refundId proven => settleRefund s refundId proven
  | .purge orderId => .ok (purgeOrderInSet s orderId)

/-- One atomic step: a refused operation leaves the tables as they were. -/
def stockStep (action : StockAction) : StockResult Unit×Store :=
  match runStock s action with
  | .ok next => (.ok (),next)
  | .error error => (.error error,s)

end SellRight.StockStore
