import SellRight.PaymentLedger
import SellRight.RowTable
import SellRight.SqlRows

/-!
# Status projections of an order

The payment and fulfilment status of an order and the tabs it is listed under
are computed three times: by functions over its rows, by queries that look its
rows up, and by one query over the grouped tables. The queries agree with each
other on every order. They agree with the functions exactly when no money of a
staged edit is counted as handed back.
-/

namespace SellRight.OrderStatusSql

open OrderLifecycle PaymentLedger RowTable SqlRows List

/-- Columns of an order read by its projections. -/
structure Order where
  id : String
  state : OrderState
  grandTotal : ℤ
  /-- Marker of imported history that needs reconciliation. -/
  reconciliation : Option String
  deriving DecidableEq

/-- Columns of an order line read by the projections. -/
structure OrderLine where
  orderId : String
  variantId : Option String
  (quantity fulfilledQty cancelledQty : ℤ)
  deriving DecidableEq

/-- Columns of a variant read by the projections. -/
structure Variant where
  id : String
  /-- The variant is sold before it is in stock. -/
  isPreOrder : Bool
  deriving DecidableEq

inductive FulfillmentState where
  | pending | shipped | delivered | cancelled
  deriving DecidableEq

/-- Columns of a fulfilment read by the projections. -/
structure Fulfillment where
  orderId : String
  state : FulfillmentState

/-- Tables of one store with their primary keys. -/
structure Tables where
  orders : List Order
  lines : List OrderLine
  variants : List Variant
  fulfillments : List Fulfillment
  payments : List Payment
  refunds : List Refund
  edits : List OrderEdit
  orderIds : (orders.map Order.id).Nodup
  variantIds : (variants.map Variant.id).Nodup

/-- Payment status shown for an order. -/
inductive PaymentStatus where
  | pending | authorized | paid | partiallyRefunded | refunded | voided | failed | balanceDue
  deriving DecidableEq

/-- Fulfilment status shown for an order. -/
inductive FulfillmentStatus where
  | unfulfilled | partiallyFulfilled | fulfilled | partiallyDelivered | delivered

/-- States of a paid order that is not fully refunded. -/
def openPaid (state : OrderState) : Bool :=
  decide (state=.paid∨state=.partiallyRefunded)

def isFailedPayment (state : PaymentState) : Bool :=
  decide (state=.declined∨state=.failed)

/-- Payment status from the state of an order, its payments and what it owes. -/
def derivePaymentStatus (state : OrderState) (paymentsNewestFirst : List Payment)
    (amountDue : Option ℤ) : PaymentStatus :=
  if openPaid state∧0<amountDue.getD 0 then .balanceDue
  else
    match state with
    | .refunded => .refunded
    | .partiallyRefunded => .partiallyRefunded
    | .paid => .paid
    | .cancelled =>
      if paymentsNewestFirst.any fun p => decide (p.state=.settled) then .paid
      else if paymentsNewestFirst.any fun p => decide (p.state=.authorized) then .voided
      else if paymentsNewestFirst.any fun p => isFailedPayment p.state then .failed
      else .pending
    | .pendingPayment =>
      match paymentsNewestFirst with
      | [] => .pending
      | latest::_ =>
        if latest.state=.authorized then .authorized
        else if isFailedPayment latest.state then .failed
        else .pending

/-- Units of a line after removals. -/
def orderedNet (line : OrderLine) : ℤ := max (line.quantity-line.cancelledQty) 0

/-- Units of a line still to ship. -/
def openUnits (line : OrderLine) : ℤ :=
  max (line.quantity-line.fulfilledQty-line.cancelledQty) 0

/-- Fulfilment status from the lines of an order and its fulfilments. -/
def deriveFulfillmentStatus (lines : List OrderLine) (fulfillments : List Fulfillment) :
    FulfillmentStatus :=
  let total := (lines.map orderedNet).sum
  let fulfilled := (lines.map OrderLine.fulfilledQty).sum
  if total≤0 then .fulfilled
  else if fulfilled≤0 then .unfulfilled
  else if fulfilled<total then .partiallyFulfilled
  else
    let active := fulfillments.filter fun f => decide (f.state≠.cancelled)
    let delivered := active.countP fun f => decide (f.state=.delivered)
    if active.length=0 then .fulfilled
    else if delivered=active.length then .delivered
    else if 0<delivered then .partiallyDelivered
    else .fulfilled

variable (T : Tables) (o : Order)

def paymentsOf (orderId : String) : List Payment :=
  T.payments.filter fun p => decide (p.orderId=orderId)

def linesOf (orderId : String) : List OrderLine :=
  T.lines.filter fun line => decide (line.orderId=orderId)

def fulfillmentsOf (orderId : String) : List Fulfillment :=
  T.fulfillments.filter fun f => decide (f.orderId=orderId)

/-- A refund of an order edit that did not fail, as the queries read it. -/
def editRefundRow (r : Refund) : Bool :=
  decide (r.state≠.failed)&&holds (sqlEq r.source (some editRefundSource))

/-- Cents still owed, as a query. -/
def balanceDueSql : ℤ := o.grandTotal -
    (sqlSum (((paymentsOf T o.id).filter usableTender).map fun p => some p.amount)).getD 0 +
    (sqlSum ((T.refunds.filter fun r => decide (r.orderId=o.id)&&editRefundRow r).map
      fun r => some r.amount)).getD 0

/-- Payment status of a payment state, as a query reads the latest payment. -/
def latestStatus (state : Option PaymentState) : PaymentStatus :=
  if holds (sqlEq state (some .authorized)) then .authorized
  else if holds (sqlEq state (some .declined)) then .failed
  else if holds (sqlEq state (some .failed)) then .failed
  else .pending

/-- Payment status without the balance, as a query. -/
def paymentStatusSql : PaymentStatus :=
  match o.state with
  | .refunded => .refunded
  | .partiallyRefunded => .partiallyRefunded
  | .paid => .paid
  | .cancelled =>
    if (paymentsOf T o.id).any fun p => decide (p.state=.settled) then .paid
    else if (paymentsOf T o.id).any fun p => decide (p.state=.authorized) then .voided
    else if (paymentsOf T o.id).any fun p => isFailedPayment p.state then .failed
    else .pending
  | .pendingPayment =>
    (((orderByDesc Payment.createdAt (paymentsOf T o.id)).head?).map fun p =>
      latestStatus (some p.state)).getD .pending

/-- Payment status, as a query. -/
def paymentStatusWithBalanceSql : PaymentStatus :=
  if o.reconciliation=none∧openPaid o.state∧0<balanceDueSql T o then .balanceDue
  else paymentStatusSql T o

/-- Sum of a column over the lines of an order, with nothing read as zero. -/
def lineSum (f : OrderLine → ℤ) : ℤ :=
  (sqlSum ((linesOf T o.id).map fun line => some (f line))).getD 0

/-- Fulfilment status, as a query. -/
def fulfillmentStatusSql : FulfillmentStatus :=
  let anyState (p : FulfillmentState → Bool) := (fulfillmentsOf T o.id).any fun f => p f.state
  if lineSum T o orderedNet≤0 then .fulfilled
  else if lineSum T o OrderLine.fulfilledQty≤0 then .unfulfilled
  else if lineSum T o OrderLine.fulfilledQty<lineSum T o orderedNet then .partiallyFulfilled
  else if !anyState fun state => decide (state≠.cancelled) then .fulfilled
  else if anyState (fun state => decide (state=.delivered)) &&
      anyState fun state => decide (state≠.cancelled∧state≠.delivered) then .partiallyDelivered
  else if anyState fun state => decide (state≠.cancelled∧state≠.delivered) then .fulfilled
  else .delivered

/-- Tabs of the order list. -/
inductive OrderTab where
  | tofulfil | pre | partialTab | unpaid | shipped | refunded | cancelled

/-- Units of an order still to ship. -/
def openQtySql : ℤ := lineSum T o openUnits

def ofVariant (line : OrderLine) (variant : Variant) : Option Bool :=
  sqlEq (some variant.id) line.variantId

/-- Units of an order still to ship whose variant is on pre-order. -/
def openPreOrderQtySql : ℤ := (sqlSum (((innerJoin ofVariant T.lines T.variants).filter fun row =>
    decide (row.1.orderId=o.id)&&row.2.isPreOrder).map fun row => some (openUnits row.1))).getD 0

/-- Shipped units of an order. -/
def shippedQtySql : ℤ := lineSum T o OrderLine.fulfilledQty

/-- The status asks for a payment. -/
def isUnpaidStatus (status : PaymentStatus) : Bool :=
  decide (status=.pending∨status=.authorized∨status=.balanceDue)

/-- The order is listed under a tab, as a query for each order. -/
def orderTabSql (tab : OrderTab) : Bool :=
  match tab with
  | .tofulfil => openPaid o.state&&decide (0<openQtySql T o-openPreOrderQtySql T o)
  | .pre => decide (o.state≠.cancelled)&&decide (0<openPreOrderQtySql T o)
  | .partialTab => openPaid o.state&&decide (0<shippedQtySql T o∧0<openQtySql T o)
  | .unpaid => decide (o.state≠.cancelled)&&isUnpaidStatus (paymentStatusWithBalanceSql T o)
  | .shipped => decide (o.state≠.cancelled) &&
      decide (0<shippedQtySql T o∧openQtySql T o=0)
  | .refunded => decide (o.state=.refunded∨o.state=.partiallyRefunded)
  | .cancelled => decide (o.state=.cancelled)

/-- Aggregates of the lines of one order. -/
structure LineAggregate where
  openQty : Option ℤ
  openPre : ℤ
  shipped : Option ℤ

/-- Aggregates of the payments of one order. -/
structure PaymentAggregate where
  settled : Option ℤ
  (anySettled anyAuth anyFailed : Option Bool)
  latest : Option PaymentState

/-- Aggregate over the lines of an order, each with its variant. -/
def lineAggregate (rows : List (OrderLine×Option Variant)) : LineAggregate where
  openQty := sqlSum (rows.map fun row => some (openUnits row.1))
  openPre := (sqlSum ((rows.filter fun row => holds (row.2.map Variant.isPreOrder)).map
    fun row => some (openUnits row.1))).getD 0
  shipped := sqlSum (rows.map fun row => some row.1.fulfilledQty)

/-- Aggregate over the payments of an order. -/
def paymentAggregate (rows : List Payment) : PaymentAggregate where
  settled := sqlSum ((rows.filter usableTender).map fun p => some p.amount)
  anySettled := boolOr (rows.map fun p => some (decide (p.state=.settled)))
  anyAuth := boolOr (rows.map fun p => some (decide (p.state=.authorized)))
  anyFailed := boolOr (rows.map fun p => some (isFailedPayment p.state))
  latest := ((orderByDesc Payment.createdAt rows).map Payment.state).head?

/-- Aggregate over the edit refunds of an order. -/
def refundAggregate (rows : List Refund) : Option ℤ := sqlSum (rows.map fun r => some r.amount)

/-- Row of the aggregated orders. -/
structure Aggregate where
  id : String
  state : OrderState
  (openQty openPre shipped : ℤ)
  paymentStatus : PaymentStatus

/-- Payment status from the aggregates of an order. -/
def aggregateStatus (pay : Option PaymentAggregate) (editRef : Option ℤ) : PaymentStatus :=
  if openPaid o.state∧0<o.grandTotal-(pay.bind PaymentAggregate.settled).getD 0+editRef.getD 0 ∧
      o.reconciliation=none then .balanceDue
  else
    match o.state with
    | .refunded => .refunded
    | .partiallyRefunded => .partiallyRefunded
    | .paid => .paid
    | .cancelled =>
      if holds (pay.bind PaymentAggregate.anySettled) then .paid
      else if holds (pay.bind PaymentAggregate.anyAuth) then .voided
      else if holds (pay.bind PaymentAggregate.anyFailed) then .failed
      else .pending
    | .pendingPayment => latestStatus (pay.bind PaymentAggregate.latest)

def ofOrder {β : Type} (id : String) (group : String×β) : Option Bool :=
  sqlEq (some group.1) (some id)

def orderAggregatesSql : List Aggregate :=
  let ol := (groupBy (fun row : OrderLine×Option Variant => row.1.orderId)
    (leftJoin ofVariant T.lines T.variants)).map fun group => (group.1,lineAggregate group.2)
  let pay := (groupBy Payment.orderId T.payments).map fun group =>
    (group.1,paymentAggregate group.2)
  let ref := (groupBy Refund.orderId (T.refunds.filter editRefundRow)).map fun group =>
    (group.1,refundAggregate group.2)
  let withLines := leftJoin (fun o group => ofOrder o.id group) T.orders ol
  let withPayments := leftJoin (fun row group => ofOrder (Prod.fst row).id group) withLines pay
  let joined := leftJoin (fun row group => ofOrder (Prod.fst (Prod.fst row)).id group) withPayments ref
  joined.map fun row =>
    let o := row.1.1.1
    let lines := row.1.1.2.map Prod.snd
    ⟨o.id,o.state,(lines.bind LineAggregate.openQty).getD 0,
      (lines.map LineAggregate.openPre).getD 0,(lines.bind LineAggregate.shipped).getD 0,
      aggregateStatus o (row.1.2.map Prod.snd) (row.2.bind Prod.snd)⟩

/-- The aggregated order is listed under a tab. -/
def aggregateTabSql (tab : OrderTab) (row : Aggregate) : Bool :=
  match tab with
  | .tofulfil => openPaid row.state&&decide (0<row.openQty-row.openPre)
  | .pre => decide (row.state≠.cancelled)&&decide (0<row.openPre)
  | .partialTab => openPaid row.state&&decide (0<row.shipped∧0<row.openQty)
  | .unpaid => decide (row.state≠.cancelled)&&isUnpaidStatus row.paymentStatus
  | .shipped => decide (row.state≠.cancelled)&&decide (0<row.shipped∧row.openQty=0)
  | .refunded => decide (row.state=.refunded∨row.state=.partiallyRefunded)
  | .cancelled => decide (row.state=.cancelled)

/-- The order is selected by the query over the grouped tables. -/
def orderTabFilterSql (tab : OrderTab) : Bool :=
  decide (o.id∈((orderAggregatesSql T).filter (aggregateTabSql tab)).map Aggregate.id)

variable {T o}

/-- Money of edit refunds that did not fail and belong to a staged edit that
is not activated. -/
def stagedRefundTotal (refunds : List Refund) (edits : List OrderEdit) (orderId : String) : ℤ :=
  ((refunds.filter fun r => decide (r.orderId=orderId)&&decide (r.state≠.failed) &&
    isEditRefund r&&awaitsActivation edits r).map Refund.amount).sum

/-- The queries and the functions read the same rows as edit refunds. -/
theorem editRefundRow_eq (r : Refund) :
    editRefundRow r=(decide (r.state≠.failed)&&isEditRefund r) := by
  rw [editRefundRow,holds_sqlEq,isEditRefund]

/-- The query for the balance counts the money of staged edits as handed back
as well. -/
theorem balanceDueSql_eq : balanceDueSql T o =
    amountDueForOrder T.payments T.refunds T.edits o.id o.grandTotal +
      stagedRefundTotal T.refunds T.edits o.id := by
  have hset : ((paymentsOf T o.id).filter usableTender).map Payment.amount =
      (T.payments.filter fun p => decide (p.orderId=o.id)&&usableTender p).map
        Payment.amount := by
    rw [paymentsOf,filter_filter]
    simp only [Bool.and_comm]
  have href : ((T.refunds.filter fun r => decide (r.orderId=o.id)&&editRefundRow r).map
      Refund.amount).sum =
        editRefundedTotal T.refunds T.edits o.id+stagedRefundTotal T.refunds T.edits o.id := by
    rw [editRefundedTotal,stagedRefundTotal,sum_map_filter,sum_map_filter,sum_map_filter,
      ← sum_map_add]
    refine congrArg List.sum (map_congr_left fun r _ => ?_)
    rw [countsAsEditRefund,editRefundRow_eq]
    cases awaitsActivation T.edits r with
    | false | true => simp [Bool.and_assoc]
  rw [balanceDueSql,sqlSum_getD,sqlSum_getD,hset,href,amountDueForOrder,settledTotal]
  ring

theorem lineSum_eq (f : OrderLine → ℤ) : lineSum T o f=((linesOf T o.id).map f).sum := by
  rw [lineSum,sqlSum_getD]

theorem delivered_count (fulfillments : List Fulfillment) :
    let active := fulfillments.filter fun f => decide (f.state≠.cancelled)
    let delivered := active.countP fun f => decide (f.state=.delivered)
    (active.length=0 ↔ fulfillments.any (fun f => decide (f.state≠.cancelled))=false) ∧
      (0<delivered ↔ fulfillments.any (fun f => decide (f.state=.delivered))=true) ∧
      (delivered=active.length ↔
        fulfillments.any (fun f => decide (f.state≠.cancelled∧f.state≠.delivered))=false) := by
  refine ⟨?_,?_,?_⟩
  · rw [length_eq_zero_iff,filter_eq_nil_iff,any_eq_false]
  · rw [countP_filter,countP_pos_iff,any_eq_true]
    constructor
    · rintro ⟨f,hf,hbo⟩
      exact ⟨f,hf,(Bool.and_eq_true_iff.mp hbo).1⟩
    · rintro ⟨f,hf,hdel⟩
      refine ⟨f,hf,Bool.and_eq_true_iff.mpr ⟨hdel,?_⟩⟩
      rw [of_decide_eq_true hdel]
      rfl
  · rw [countP_eq_length,any_eq_false]
    constructor
    · rintro hall f hf hop
      obtain ⟨hact,hnot⟩ := of_decide_eq_true hop
      exact hnot (of_decide_eq_true (hall f (mem_filter.mpr ⟨hf,decide_eq_true hact⟩)))
    · intro hno f hf
      obtain ⟨hf,hact⟩ := mem_filter.mp hf
      refine decide_eq_true ?_
      by_contra hnot
      exact hno f hf (decide_eq_true ⟨of_decide_eq_true hact,hnot⟩)

theorem fulfillmentStatusSql_eq :
    fulfillmentStatusSql T o=deriveFulfillmentStatus (linesOf T o.id) (fulfillmentsOf T o.id) := by
  obtain ⟨hact,hdel,hall⟩ := delivered_count (fulfillmentsOf T o.id)
  simp only [fulfillmentStatusSql,deriveFulfillmentStatus,lineSum_eq,hact,hdel,hall]
  rcases Bool.eq_false_or_eq_true
    ((fulfillmentsOf T o.id).any fun f => decide (f.state≠.cancelled)) with hso | hno
  · rcases Bool.eq_false_or_eq_true ((fulfillmentsOf T o.id).any fun f =>
      decide (f.state≠.cancelled∧f.state≠.delivered)) with hop | hclo
    · simp only [hso,hop,Bool.and_true,Bool.not_true,Bool.false_eq_true,if_false,if_true,
        Bool.true_eq_false]
    · simp only [hso,hclo,Bool.and_false,Bool.not_true,Bool.false_eq_true,if_false,
        Bool.true_eq_false,if_true]
  · simp only [hno,Bool.not_false,if_true]

/-- The latest payment of the query is the first one of the list. -/
theorem paymentStatusSql_eq {payments : List Payment}
    (htim : ((paymentsOf T o.id).map Payment.createdAt).Nodup)
    (hper : payments.Perm (paymentsOf T o.id))
    (hsor : payments.Pairwise fun a b => b.createdAt≤a.createdAt) :
    paymentStatusSql T o=derivePaymentStatus o.state payments none := by
  have hany : ∀ p : Payment → Bool, (paymentsOf T o.id).any p=payments.any p :=
    fun p => (List.Perm.any_eq hper).symm
  have hsta : ∀ state : PaymentState, latestStatus (some state) =
      if state=.authorized then .authorized
      else if isFailedPayment state then .failed else .pending := by
    intro state
    cases state <;> rfl
  unfold paymentStatusSql derivePaymentStatus
  rw [orderByDesc_eq htim hper hsor]
  simp only [Option.getD_none,lt_self_iff_false,and_false,if_false,hany]
  cases o.state with
  | pendingPayment =>
    cases payments with
    | nil => rfl
    | cons latest => exact hsta latest.state
  | paid | partiallyRefunded | refunded | cancelled => rfl

/-- A field of the aggregate of a group that may be absent, missing in the
aggregate of no rows. -/
theorem group_bind {ρ β γ : Type} [DecidableEq ρ] (id : String) (rows : List ρ) (aggregate : List ρ → β)
    (field : β → Option γ) (hno : field (aggregate [])=none) :
    (((if rows=[] then none else some (id,aggregate rows)).map Prod.snd).bind field) =
      field (aggregate rows) := by
  split_ifs with hrs
  · rw [hrs,hno]
    rfl
  · rfl

variable (T o)

def variantOf (line : OrderLine) : Option Variant :=
  line.variantId.bind fun k => T.variants.find? fun variant => decide (variant.id=k)

def aggregateRow : Aggregate :=
  ⟨o.id,o.state,openQtySql T o,openPreOrderQtySql T o,shippedQtySql T o,
    paymentStatusWithBalanceSql T o⟩

variable {T o}

theorem leftJoin_variants : leftJoin ofVariant T.lines T.variants =
    T.lines.map fun line => (line,variantOf T line) :=
  leftJoin_unique T.lines T.variants OrderLine.variantId Variant.id T.variantIds

theorem openPreOrderQtySql_eq : openPreOrderQtySql T o =
    (((linesOf T o.id).filter fun line => holds ((variantOf T line).map Variant.isPreOrder)).map
      openUnits).sum := by
  have hjoi : innerJoin ofVariant T.lines T.variants =
      T.lines.filterMap fun line => (variantOf T line).map fun variant => (line,variant) :=
    innerJoin_unique T.lines T.variants OrderLine.variantId Variant.id T.variantIds
  rw [openPreOrderQtySql,hjoi,sqlSum_getD,linesOf]
  induction T.lines with
  | nil => rfl
  | cons line _ ih =>
    rw [filterMap_cons,filter_cons]
    by_cases hown : line.orderId=o.id
    · cases hvar : variantOf T line with
      | none => simpa [hown,hvar] using ih
      | some variant =>
        cases hpre : variant.isPreOrder with
        | false | true => simpa [hown,hvar,hpre] using ih
    · cases variantOf T line with
      | none | some => simpa [hown] using ih

theorem lineAggregate_eq :
    let rows := (leftJoin ofVariant T.lines T.variants).filter fun row =>
      decide (row.1.orderId=o.id)
    (lineAggregate rows).openQty.getD 0=openQtySql T o ∧
      (lineAggregate rows).openPre=openPreOrderQtySql T o ∧
      (lineAggregate rows).shipped.getD 0=shippedQtySql T o := by
  have hrs : ((leftJoin ofVariant T.lines T.variants).filter fun row =>
      decide (row.1.orderId=o.id))=(linesOf T o.id).map fun line => (line,variantOf T line) := by
    rw [leftJoin_variants,filter_map]
    rfl
  simp only [hrs,lineAggregate,map_map,Function.comp_def]
  refine ⟨rfl,?_,rfl⟩
  rw [filter_map,map_map,openPreOrderQtySql_eq]
  exact sqlSum_getD _ _

theorem aggregateStatus_eq :
    aggregateStatus o
        ((if (T.payments.filter fun p => decide (p.orderId=o.id))=[] then none
          else some (o.id,paymentAggregate (T.payments.filter fun p =>
            decide (p.orderId=o.id)))).map Prod.snd)
        ((if ((T.refunds.filter editRefundRow).filter fun r => decide (r.orderId=o.id))=[] then none
          else some (o.id,refundAggregate ((T.refunds.filter editRefundRow).filter fun r =>
            decide (r.orderId=o.id)))).bind Prod.snd) =
      paymentStatusWithBalanceSql T o := by
  have href : ((if ((T.refunds.filter editRefundRow).filter fun r =>
      decide (r.orderId=o.id))=[] then none
        else some (o.id,refundAggregate ((T.refunds.filter editRefundRow).filter fun r =>
          decide (r.orderId=o.id)))).bind Prod.snd) =
      sqlSum ((T.refunds.filter fun r => decide (r.orderId=o.id)&&editRefundRow r).map
        fun r => some r.amount) := by
    rw [filter_filter]
    split_ifs with hno
    · rw [hno]
      rfl
    · rfl
  rw [href]
  unfold aggregateStatus paymentStatusWithBalanceSql
  simp only [group_bind o.id _ paymentAggregate PaymentAggregate.settled rfl,
    group_bind o.id _ paymentAggregate PaymentAggregate.anySettled rfl,
    group_bind o.id _ paymentAggregate PaymentAggregate.anyAuth rfl,
    group_bind o.id _ paymentAggregate PaymentAggregate.anyFailed rfl,
    group_bind o.id _ paymentAggregate PaymentAggregate.latest rfl]
  refine if_congr ⟨fun h => ⟨h.2.2,h.1,h.2.1⟩,fun h => ⟨h.2.1,h.2.2,h.1⟩⟩ rfl ?_
  unfold paymentStatusSql
  cases o.state with
  | pendingPayment =>
    simp only [paymentAggregate,paymentsOf]
    cases orderByDesc Payment.createdAt (T.payments.filter fun p => decide (p.orderId=o.id)) with
    | nil => rfl
    | cons => rfl
  | paid | partiallyRefunded | refunded => rfl
  | cancelled =>
    simp only [paymentAggregate,holds_boolOr,paymentsOf]
    rfl

/-- The query over the grouped tables has one row for each order. -/
theorem orderAggregatesSql_eq : orderAggregatesSql T=T.orders.map (aggregateRow T) := by
  unfold orderAggregatesSql
  simp only [ofOrder]
  rw [leftJoin_groupBy T.orders Order.id,
    leftJoin_groupBy _ fun row : Order×Option (String×LineAggregate) => row.1.id,
    leftJoin_groupBy _ fun row : (Order×Option (String×LineAggregate)) ×
      Option (String×PaymentAggregate) => row.1.1.id]
  simp only [map_map]
  refine map_congr_left fun o _ => ?_
  obtain ⟨hop,hpre,hshi⟩ := @lineAggregate_eq T o
  have hsta := @aggregateStatus_eq T o
  simp only [Function.comp_apply,group_bind o.id _ lineAggregate LineAggregate.openQty rfl,
    group_bind o.id _ lineAggregate LineAggregate.shipped rfl,hop,hshi,hsta]
  rw [aggregateRow,← hpre]
  congr 1
  split_ifs with hno
  · rw [hno]
    rfl
  · rfl

/-- The query over the grouped tables lists an order under the tabs of the
query for each order. -/
theorem orderTabFilterSql_eq (ho : o∈T.orders) (tab : OrderTab) :
    orderTabFilterSql T o tab=orderTabSql T o tab := by
  have hrow : aggregateTabSql tab (aggregateRow T o)=orderTabSql T o tab := by
    cases tab <;> rfl
  rw [orderTabFilterSql,orderAggregatesSql_eq,← hrow,Bool.eq_iff_iff,decide_eq_true_eq]
  constructor
  · intro hlis
    obtain ⟨row,hmem,hid⟩ := mem_map.mp hlis
    obtain ⟨hrs,htab⟩ := mem_filter.mp hmem
    obtain ⟨other,hot,rfl⟩ := mem_map.mp hrs
    rw [eq_of_key_eq Order.id T.orderIds hot ho hid] at htab
    exact htab
  · intro htab
    exact mem_map.mpr ⟨aggregateRow T o,mem_filter.mpr ⟨mem_map_of_mem ho,htab⟩,rfl⟩

/-- Every projection of an order agrees exactly when no money of a staged edit
that is not activated was refunded. -/
theorem statusProjections_agree_iff {payments : List Payment} (ho : o∈T.orders)
    (hmarker : o.reconciliation=none)
    (htimes : ((paymentsOf T o.id).map Payment.createdAt).Nodup)
    (hperm : payments.Perm (paymentsOf T o.id))
    (hsorted : payments.Pairwise fun a b => b.createdAt≤a.createdAt) :
    (balanceDueSql T o=amountDueForOrder T.payments T.refunds T.edits o.id o.grandTotal ∧
      paymentStatusWithBalanceSql T o=derivePaymentStatus o.state payments
        (some (amountDueForOrder T.payments T.refunds T.edits o.id o.grandTotal)) ∧
      fulfillmentStatusSql T o=deriveFulfillmentStatus (linesOf T o.id) (fulfillmentsOf T o.id) ∧
      ∀ tab, orderTabFilterSql T o tab=orderTabSql T o tab) ↔
    stagedRefundTotal T.refunds T.edits o.id=0 := by
  have hbal := @balanceDueSql_eq T o
  constructor
  · rintro ⟨heq,-⟩
    omega
  · intro hno
    have heq : balanceDueSql T o =
        amountDueForOrder T.payments T.refunds T.edits o.id o.grandTotal := by omega
    refine ⟨heq,?_,fulfillmentStatusSql_eq,orderTabFilterSql_eq ho⟩
    rw [paymentStatusWithBalanceSql,heq,paymentStatusSql_eq htimes hperm hsorted]
    unfold derivePaymentStatus
    simp only [hmarker,true_and,Option.getD_some,Option.getD_none,lt_self_iff_false,and_false,
      if_false]

/-- Order of the sample, paid in full. -/
def sampleOrder : Order := ⟨"order",.paid,100,none⟩

/-- An order with one payment and a refund of twenty cents prepared for an
edit in a phase. -/
def sampleTables (phase : String) : Tables where
  orders := [sampleOrder]
  lines := [⟨"order",none,2,2,0⟩]
  variants := []
  fulfillments := [⟨"order",.delivered⟩]
  payments := [⟨"payment", "order",100, "stripe",none,.settled,none,none,none,false,none,0⟩]
  refunds := [⟨"refund",none, "payment", "order",20,0,0,20,.pending,none,none,
    some editRefundSource,none⟩]
  edits := [⟨"edit", "order",some ⟨some phase,some "refund",none⟩⟩]
  orderIds := by decide
  variantIds := by decide

/-- An order waiting for the refund of a staged edit is shown as owing its
amount. -/
theorem statusProjections_agree_iff_staged :
    ¬ ∀ (T : Tables) (o : Order) (payments : List Payment), o∈T.orders → o.reconciliation=none →
      ((paymentsOf T o.id).map Payment.createdAt).Nodup→payments.Perm (paymentsOf T o.id) →
      (payments.Pairwise fun a b => b.createdAt≤a.createdAt) →
      balanceDueSql T o=amountDueForOrder T.payments T.refunds T.edits o.id o.grandTotal ∧
        paymentStatusWithBalanceSql T o=derivePaymentStatus o.state payments
          (some (amountDueForOrder T.payments T.refunds T.edits o.id o.grandTotal)) := by
  intro hall
  have heq := hall (sampleTables "awaiting_refund") sampleOrder
    (paymentsOf (sampleTables "awaiting_refund") "order") (by decide) rfl (by decide)
    (List.Perm.refl _) (by decide)
  exact absurd heq.1 (by decide)

/-- Without money of a staged edit the projections agree. -/
theorem statusProjections_agree_iff_activated :
    paymentStatusWithBalanceSql (sampleTables "activated") sampleOrder =
      derivePaymentStatus .paid (paymentsOf (sampleTables "activated") "order") (some 20) := by
  have hagr := (@statusProjections_agree_iff (sampleTables "activated") sampleOrder
    (paymentsOf (sampleTables "activated") "order") (by decide) rfl (by decide)
    (List.Perm.refl _) (by decide)).mpr (by decide)
  exact hagr.2.1

end SellRight.OrderStatusSql
