import SellRight.CartStore

/-!
# Carts and the orders checked out from them

A checkout converts a cart into an unpaid order, a reopening reads the cart
and its order without locks and later cancels the order and takes the cart
back under the order's locks, a job cancels unpaid orders and payment
deliveries mark orders paid. A checkout holds the lock of its cart row, the
other writers that of the order row, so each is one step.
-/

namespace SellRight.CartOrders

open RowTable RunHistory CartStore
open OrderLifecycle (OrderState canTransition)

/-- Row of the order table. -/
structure OrderRow where
  id : String
  idempotencyKey : Option String
  state : OrderState
  deleted : Bool
  /-- Cart it was placed from; recorded here only, the row has no such column. -/
  cartId : Option String

/-- Carts and orders of one store. -/
structure Shop where
  carts : Carts
  orders : List OrderRow

structure CheckoutRequest where
  idemKey : Option String
  /-- The stored order of the key was placed by the same payload. -/
  fingerprintMatches : Bool
  /-- Token of the cart; none for a checkout of client items. -/
  cartToken : Option String
  expectedRevision : Option ℤ
  orderId : String
  now : ℤ
  completes : Bool
  /-- Nothing is left to pay, or a placement tender covers it. -/
  paidAtPlacement : Bool

/-- Answer of a step. -/
inductive Answer where
  /-- Answer of the cart tables; a reopening reports `ok` with it. -/
  | cart (reply : Reply)
  | placed (orderId : String)
  | replayed (orderId : String)
  /-- The key was used with another payload. -/
  | fingerprintConflict
  /-- The reopening read a converted cart with an order not paid yet. -/
  | reopenable (cartId orderId : String)
  /-- The order was cancelled or marked paid. -/
  | moved
  | skipped
  deriving DecidableEq

variable (s : Shop)

def findOrder (orderId : String) : Option OrderRow :=
  s.orders.find? fun o => decide (o.id=orderId)

/-- Order placed under an idempotency key. -/
def findKey (key : String) : Option OrderRow :=
  s.orders.find? fun o => decide (o.idempotencyKey=some key)

/-- Order inserted by a checkout. -/
def newOrder (request : CheckoutRequest) (cartId : Option String) : OrderRow where
  id := request.orderId
  idempotencyKey := request.idemKey
  state := if request.paidAtPlacement then .paid else .pendingPayment
  deleted := false
  cartId := cartId

/-- Part of a checkout that converts the cart. -/
def conversion (request : CheckoutRequest) (token : String) : ConvertRequest where
  token := token
  expectedRevision := request.expectedRevision
  orderId := request.orderId
  now := request.now
  completes := request.completes

/-- Answer of a checkout of a converted cart: its order, unless soft deleted. -/
def replayConverted (orderId : Option String) : Answer :=
  match (orderId.bind (findOrder s)).filter fun o => !o.deleted with
  | some o => .replayed o.id
  | none => .cart .cartInvalid

/-- Checkout of a cart under the lock of its row. -/
def checkoutCart (request : CheckoutRequest) (token : String) : Answer×Shop :=
  match convertCart s.carts (conversion request token) with
  | (.ok,carts) =>
    (.placed request.orderId,
      ⟨carts,s.orders++[newOrder request ((findCart s.carts token).map CartRow.id)]⟩)
  | (.replay orderId,_) => (replayConverted s orderId,s)
  | (reply,_) => (.cart reply,s)

/-- Checkout: a known key replays its order before the cart is looked at. -/
def checkout (request : CheckoutRequest) : Answer×Shop :=
  match request.idemKey.bind (findKey s) with
  | some existing =>
    (if request.fingerprintMatches then .replayed existing.id else .fingerprintConflict,s)
  | none =>
    match request.cartToken with
    | some token => checkoutCart s request token
    | none =>
      if request.completes then
        (.placed request.orderId,{s with orders := s.orders++[newOrder request none]})
      else (.cart .failed,s)

/-- Decision of a reopening about the order it read. -/
def reopenOrder (row : CartRow) : Option OrderRow → Answer
  | none => .cart .missing
  | some order =>
    if order.state=.pendingPayment∨order.state=.cancelled then .reopenable row.id order.id
    else .cart .paid

/-- First part of a reopening: cart and order are read without locks. -/
def reopenRead (token : String) : Answer :=
  match findCart s.carts token with
  | none => .cart .missing
  | some row =>
    match row.status with
    | .active => .cart .ok
    | .abandoned => .cart .ok
    | .converted => reopenOrder row (row.convertedOrderId.bind (findOrder s))
    | .merged => .cart .missing

/-- A cart that is still converted into the order a reopening read. -/
def stillConverted (request : ReopenRequest) (row : CartRow) : Bool :=
  decide (row.id=request.cartId∧row.status=.converted∧row.convertedOrderId=some request.orderId)

/-- Cancel an unpaid order. -/
def cancelOrder (orders : List OrderRow) (orderId : String) : List OrderRow :=
  updateWhere (fun o => decide (o.id=orderId∧o.state=.pendingPayment))
    (fun o => {o with state := .cancelled}) orders

/-- Request of a reopening with the order state found under the locks. -/
def underLocks (request : ReopenRequest) : ReopenRequest :=
  {request with orderState := (findOrder s request.orderId).map OrderRow.state}

/-- Second part of a reopening: under the order's locks the unpaid order is
cancelled and the cart taken back, or both are left as they are. -/
def reopenCommit (request : ReopenRequest) : Answer×Shop :=
  let outcome := reopenConvertedCart s.carts (underLocks s request)
  (.cart outcome.1,
    ⟨outcome.2,if outcome.1=.ok∧s.carts.carts.any (stillConverted request)=true then
        cancelOrder s.orders request.orderId else s.orders⟩)

section
variable (s : Shop) (orderId : String)

/-- Cancellation of an order left unpaid; the other tables may forbid it. -/
def cancelUnpaid (cancellable : Bool) : Answer×Shop :=
  match findOrder s orderId with
  | some order =>
    if order.state=.pendingPayment∧cancellable=true then
      (.moved,{s with orders := cancelOrder s.orders orderId})
    else (.skipped,s)
  | none => (.skipped,s)

/-- Delivery of a payment that settles an order, applied with its settlement
operation; an order that cannot become paid refuses it. -/
def orderPaid : Answer×Shop :=
  match findOrder s orderId with
  | some order =>
    if canTransition order.state .paid then
      (.moved,{s with
        orders := updateWhere (fun o => decide (o.id=orderId))
          (fun o => {o with state := .paid}) s.orders})
    else (.cart .failed,s)
  | none => (.cart .failed,s)

/-- Soft deletion of an order, whatever job or request asks for it. -/
def softDelete : Answer×Shop := (.moved,{s with
    orders := updateWhere (fun o => decide (o.id=orderId))
      (fun o => {o with deleted := true}) s.orders})

end

/-- Everything that happens to carts and their orders. -/
inductive Action where
  | checkout (request : CheckoutRequest)
  | reopenRead (token : String)
  | reopenCommit (request : ReopenRequest)
  | cancelUnpaid (orderId : String) (cancellable : Bool)
  | orderPaid (orderId : String)
  | softDelete (orderId : String)

def step : Action → Answer×Shop
  | .checkout request => checkout s request
  | .reopenRead token => (reopenRead s token,s)
  | .reopenCommit request => reopenCommit s request
  | .cancelUnpaid orderId cancellable => cancelUnpaid s orderId cancellable
  | .orderPaid orderId => orderPaid s orderId
  | .softDelete orderId => softDelete s orderId

/-- The read of a reopening that found a cart and its order. -/
def ReadsOrder (e : Event Shop Action Answer) (cartId orderId : String) : Prop :=
  ∃ token, e.action=.reopenRead token∧e.result=.reopenable cartId orderId

/-- Checkouts draw fresh order identifiers, and a reopening takes its locks
for the cart and the order it read before. -/
def Possible (h : List (Event Shop Action Answer)) (s : Shop) : Action → Prop
  | .checkout request => ∀ o∈s.orders, o.id≠request.orderId
  | .reopenCommit request => ∃ e∈h, ReadsOrder e request.cartId request.orderId
  | _ => True

end SellRight.CartOrders
