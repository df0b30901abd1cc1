import SellRight.OrderLifecycle
import SellRight.RowTable
import SellRight.RunHistory

/-!
# Gift cards

One gift card, its transaction rows, and the handlers that change them. Every
handler runs in one transaction whose statements see what was committed before
them. A written or locked card row stays locked until its transaction ends, and
so does the order of a refund.
-/

namespace SellRight.GiftCards

open OrderLifecycle

/-- Columns of a gift card that its handlers read. -/
structure GiftCard where
  balance : ℤ
  enabled : Bool
  expiresAt : Option ℤ
  deriving DecidableEq

/-- Row of the gift card's ledger. -/
structure GiftCardTransaction where
  orderId : Option ℕ
  /-- Negative when redeemed, positive when issued, topped up or refunded. -/
  amount : ℤ

/-- Settled payment with the method `gift_card`. -/
structure Payment where
  (id orderId : ℕ)
  amount : ℤ
  deriving DecidableEq

/-- Refund of a `gift_card` payment. -/
structure Refund where
  (id orderId paymentId : ℕ)
  amount : ℤ
  state : RefundState

/-- Why a card does not pay. -/
inductive Reason where
  | disabled | expired | empty | insufficientBalance

/-- What a card pays of an amount. -/
structure GiftCardApplication where
  applicable : Bool
  reason : Option Reason
  (applied remainingDue newBalance : ℤ)

/-- Apply a card against an amount due: it covers all of it or is left alone. -/
def applyGiftCard (card : GiftCard) (amountDue now : ℤ) : GiftCardApplication :=
  let due := max 0 amountDue
  let none' (reason : Reason) : GiftCardApplication := ⟨false,some reason,0,due,card.balance⟩
  if card.enabled=false then none' .disabled
  else if card.expiresAt.any fun at' => decide (at'≤now) then none' .expired
  else if card.balance≤0 then none' .empty
  else if card.balance<due then none' .insufficientBalance
  else ⟨decide (0<due),none,due,0,card.balance-due⟩

/-- Body of an admin update of the card. -/
structure Patch where
  enabled : Option Bool
  adjust : Option ℤ

/-- Change of the balance asked for, zero when none is. -/
def Patch.change (b : Patch) : ℤ := b.adjust.getD 0

/-- Card row an admin update writes over the row it read. -/
def Patch.row (b : Patch) (g : GiftCard) : GiftCard :=
  {g with enabled := b.enabled.getD g.enabled,balance := max 0 (g.balance+b.change)}

/-- How far an admin update got. -/
inductive PatchPhase where
  | read
  | written
  /-- The ledger row was inserted, if the balance was changed. -/
  | logged

/-- How far the gift card part of a checkout got. -/
inductive DrawPhase where
  | opened
  /-- The card does not pay; its row is locked when there is one. -/
  | declined (seen : Option GiftCard)
  | locked (seen : GiftCard) (appn : GiftCardApplication)
  | tendered (seen : GiftCard) (appn : GiftCardApplication)
  | written (seen : GiftCard) (appn : GiftCardApplication)
  | logged (seen : GiftCard) (appn : GiftCardApplication)

/-- How far the settlement of a refund got. -/
inductive CreditPhase where
  | marked
  | found
  /-- The card row was updated over the row it had. -/
  | written (base : GiftCard)
  | logged (base : GiftCard)

/-- Open transaction of a handler. -/
inductive Tx where
  | issue (card : GiftCard) (logged : Bool)
  | patch (body : Patch) (seen : GiftCard) (phase : PatchPhase)
  /-- Check out an order of the given total with the card. -/
  | draw (orderId tenderId : ℕ) (grandTotal : ℤ) (phase : DrawPhase)
  | request (refund : Refund)
  | settle (refund : Refund) (phase : CreditPhase)

/-- Card row after a draw. -/
def drawnRow (seen : GiftCard) (appn : GiftCardApplication) : GiftCard :=
  {seen with balance := appn.newBalance}

/-- Card row after a credit. -/
def creditedRow (base : GiftCard) (amount : ℤ) : GiftCard :=
  {base with balance := base.balance+amount}

/-- Card row the transaction holds, as it would commit it. -/
def Tx.row : Tx → Option GiftCard
  | .issue card _ => some card
  | .patch _ _ .read => none
  | .patch body seen _ => some (body.row seen)
  | .draw _ _ _ .opened => none
  | .draw _ _ _ (.declined seen) => seen
  | .draw _ _ _ (.locked seen _) => some seen
  | .draw _ _ _ (.tendered seen _) => some seen
  | .draw _ _ _ (.written seen appn) => some (drawnRow seen appn)
  | .draw _ _ _ (.logged seen appn) => some (drawnRow seen appn)
  | .request _ => none
  | .settle _ .marked => none
  | .settle _ .found => none
  | .settle refund (.written base) => some (creditedRow base refund.amount)
  | .settle refund (.logged base) => some (creditedRow base refund.amount)

/-- Ledger rows of a finished transaction. -/
def Tx.entries : Tx → List GiftCardTransaction
  | .issue card _ => [⟨none,card.balance⟩]
  | .patch body _ _ => if body.change=0 then [] else [⟨none,body.change⟩]
  | .draw orderId _ _ (.logged _ appn) => [⟨some orderId,-appn.applied⟩]
  | .draw _ _ _ _ => []
  | .request _ => []
  | .settle refund _ => [⟨some refund.orderId,refund.amount⟩]

/-- Payments of a finished transaction. -/
def Tx.tenders : Tx → List Payment
  | .draw orderId tenderId _ (.logged _ appn) => [⟨tenderId,orderId,appn.applied⟩]
  | _ => []

def markSettled (id : ℕ) (refunds : List Refund) : List Refund :=
  RowTable.updateWhere (fun r => decide (r.id=id)) (fun r => {r with state := .settled}) refunds

/-- Refunds after a finished transaction. -/
def Tx.refunds : Tx → List Refund → List Refund
  | .request refund, refunds => refunds++[refund]
  | .settle refund _, refunds => markSettled refund.id refunds
  | _, refunds => refunds

/-- Order the transaction holds. -/
def Tx.order : Tx → Option ℕ
  | .request refund => some refund.orderId
  | .settle refund _ => some refund.orderId
  | _ => none

/-- Every statement of the handler was carried out. -/
def Tx.complete : Tx → Bool
  | .issue _ logged => logged
  | .patch _ _ .logged => true
  | .patch _ _ _ => false
  | .draw _ _ _ (.declined _) => true
  | .draw _ _ _ (.logged _ _) => true
  | .draw _ _ _ _ => false
  | .request _ => true
  | .settle _ (.logged _) => true
  | .settle _ _ => false

/-- Committed rows, locks and open transactions. -/
structure Store where
  card : Option GiftCard
  ledger : List GiftCardTransaction
  payments : List Payment
  refunds : List Refund
  rowLock : Option ℕ
  orderLock : ℕ → Option ℕ
  transactions : ℕ → Option Tx
  nextId : ℕ

/-- Nothing was issued yet. -/
def Store.empty : Store := ⟨none,[],[],[],none,fun _ => none,fun _ => none,0⟩

/-- Statements of the handlers. -/
inductive Action where
  /-- Begin to issue the card: look for its code and insert it. -/
  | issue (conn : ℕ) (balance : ℤ) (enabled : Bool) (expiresAt : Option ℤ)
  | patch (conn : ℕ) (body : Patch)
  /-- Begin a checkout with a total to pay: insert its order. -/
  | checkout (conn : ℕ) (grandTotal : ℤ)
  | lockCard (conn : ℕ) (now : ℤ)
  /-- Begin a refund request: lock the order, check the amount, insert the refund. -/
  | requestRefund (conn paymentId : ℕ) (amount : ℤ)
  /-- Begin to settle a refund: lock the order and mark the refund. -/
  | finalizeRefund (conn refundId : ℕ)
  /-- Carry out the next statement of the transaction. -/
  | next (conn : ℕ)
  | commit (conn : ℕ)
  | abort (conn : ℕ)

inductive Answer where
  | continues
  | blocked
  | duplicate
  | notFound
  | exceeds
  | settledBefore
  /-- The statement threw and the transaction was rolled back. -/
  | failed
  | committed
  | aborted
  /-- The connection is not at this statement. -/
  | idle

section
variable (s : Store)

/-- Set the transaction of a connection. -/
def Store.put (conn : ℕ) (t : Tx) : Store :=
  {s with transactions := Function.update s.transactions conn (some t)}

/-- Set the transaction of a connection that takes the card row. -/
def Store.hold (conn : ℕ) (t : Tx) : Store := {s.put conn t with rowLock := some conn}

/-- Set the transaction of a connection that takes an order. -/
def Store.holdOrder (conn orderId : ℕ) (t : Tx) : Store :=
  {s.put conn t with orderLock := Function.update s.orderLock orderId (some conn)}

/-- End the transaction of a connection and free its locks. -/
def Store.close (conn : ℕ) (t : Tx) : Store := {s with
    transactions := Function.update s.transactions conn none
    rowLock := if t.row.isSome then none else s.rowLock
    orderLock := t.order.elim s.orderLock fun o => Function.update s.orderLock o none}

/-- Write the rows of a finished transaction. -/
def Store.write (t : Tx) : Store := {s with
    card := t.row <|> s.card
    ledger := s.ledger++t.entries
    payments := s.payments++t.tenders
    refunds := t.refunds s.refunds}

end

/-- Amounts reserved by the refunds of a payment that did not fail. -/
def reserved (refunds : List Refund) (paymentId : ℕ) : ℤ :=
  ((refunds.filter fun r => decide (r.paymentId=paymentId∧r.state≠.failed)).map Refund.amount).sum

/-- Latest redemption of an order. -/
def redemption (ledger : List GiftCardTransaction) (orderId : ℕ) : Option GiftCardTransaction :=
  (ledger.filter fun e => decide (e.orderId=some orderId∧e.amount<0)).getLast?

section
variable (s : Store)

/-- Lock the card for a checkout and apply it to the total. -/
def lockCard (conn orderId tenderId : ℕ) (grandTotal now : ℤ) : Answer×Store :=
  if s.rowLock≠none then (.blocked,s)
  else match s.card with
    | none => (.continues,s.put conn (.draw orderId tenderId grandTotal (.declined none)))
    | some gc =>
      let appn := applyGiftCard gc grandTotal now
      if appn.applicable then
        (.continues,s.hold conn (.draw orderId tenderId grandTotal (.locked gc appn)))
      else (.continues,s.hold conn (.draw orderId tenderId grandTotal (.declined (some gc))))

def requestRefund (conn : ℕ) (payment : Payment) (amount : ℤ) : Answer×Store :=
  if s.orderLock payment.orderId≠none then (.blocked,s)
  else if amount<1∨payment.amount-reserved s.refunds payment.id<amount then (.exceeds,s)
  else
    (.continues,{s.holdOrder conn payment.orderId
      (.request ⟨s.nextId,payment.orderId,payment.id,amount,.pending⟩) with
        nextId := s.nextId+1})

/-- Begin to settle a refund. -/
def finalizeRefund (conn : ℕ) (refund : Refund) : Answer×Store :=
  if s.orderLock refund.orderId≠none then (.blocked,s)
  else if refund.state=.settled then (.settledBefore,s)
  else (.continues,s.holdOrder conn refund.orderId (.settle refund .marked))

/-- Carry out the next statement of a transaction. -/
def statement (conn : ℕ) (t : Tx) : Answer×Store :=
  match t with
  | .issue card false => (.continues,s.put conn (.issue card true))
  | .patch body seen .read =>
    if s.rowLock≠none then (.blocked,s)
    else (.continues,s.hold conn (.patch body seen .written))
  | .patch body seen .written => (.continues,s.put conn (.patch body seen .logged))
  | .draw orderId tenderId grandTotal (.locked seen appn) =>
    (.continues,s.put conn (.draw orderId tenderId grandTotal (.tendered seen appn)))
  | .draw orderId tenderId grandTotal (.tendered seen appn) =>
    (.continues,s.put conn (.draw orderId tenderId grandTotal (.written seen appn)))
  | .draw orderId tenderId grandTotal (.written seen appn) =>
    (.continues,s.put conn (.draw orderId tenderId grandTotal (.logged seen appn)))
  | .settle refund .marked =>
    match redemption s.ledger refund.orderId with
    | none => (.failed,s.close conn t)
    | some _ => (.continues,s.put conn (.settle refund .found))
  | .settle refund .found =>
    if s.rowLock≠none then (.blocked,s)
    else match s.card with
      | none => (.failed,s.close conn t)
      | some base => (.continues,s.hold conn (.settle refund (.written base)))
  | .settle refund (.written base) => (.continues,s.put conn (.settle refund (.logged base)))
  | _ => (.idle,s)

/-- Carry out one statement of a connection without a transaction. -/
def begin : Action → Answer×Store
  | .issue conn balance enabled expiresAt =>
    if s.card≠none then (.duplicate,s)
    else if s.rowLock≠none then (.blocked,s)
    else (.continues,s.hold conn (.issue ⟨balance,enabled,expiresAt⟩ false))
  | .patch conn body =>
    match s.card with
    | none => (.notFound,s)
    | some g => (.continues,s.put conn (.patch body g .read))
  | .checkout conn grandTotal =>
    if grandTotal=0 then (.idle,s)
    else
      (.continues,{s.put conn (.draw s.nextId (s.nextId+1) grandTotal .opened) with
        nextId := s.nextId+2})
  | .requestRefund conn paymentId amount =>
    match s.payments.find? fun p => decide (p.id=paymentId) with
    | none => (.notFound,s)
    | some payment => requestRefund s conn payment amount
  | .finalizeRefund conn refundId =>
    match s.refunds.find? fun r => decide (r.id=refundId) with
    | none => (.notFound,s)
    | some refund => finalizeRefund s conn refund
  | _ => (.idle,s)

/-- Carry out one statement inside a transaction. -/
def proceed (t : Tx) : Action → Answer×Store
  | .lockCard conn now =>
    match t with
    | .draw orderId tenderId grandTotal .opened => lockCard s conn orderId tenderId grandTotal now
    | _ => (.idle,s)
  | .next conn => statement s conn t
  | .commit conn => if t.complete then (.committed,(s.write t).close conn t) else (.idle,s)
  | .abort conn => (.aborted,s.close conn t)
  | _ => (.idle,s)

end

/-- Connection that sends the statement. -/
def Action.conn : Action → ℕ
  | .issue conn _ _ _ => conn
  | .patch conn _ => conn
  | .checkout conn _ => conn
  | .lockCard conn _ => conn
  | .requestRefund conn _ _ => conn
  | .finalizeRefund conn _ => conn
  | .next conn => conn
  | .commit conn => conn
  | .abort conn => conn

/-- Carry out one statement. -/
def step (s : Store) (a : Action) : Answer×Store :=
  match s.transactions a.conn with
  | none => begin s a
  | some t => proceed s t a

section
variable (ledger : List GiftCardTransaction)

/-- Sum of the card's ledger. -/
def ledgerTotal : ℤ :=
  (ledger.map GiftCardTransaction.amount).sum

/-- Cents drawn from the card for an order. -/
def drawn (orderId : ℕ) : ℤ :=
  -((ledger.filter fun e => decide (e.orderId=some orderId∧e.amount<0)).map
    GiftCardTransaction.amount).sum

/-- Cents credited back to the card for an order. -/
def credited (orderId : ℕ) : ℤ :=
  ((ledger.filter fun e => decide (e.orderId=some orderId∧0<e.amount)).map
    GiftCardTransaction.amount).sum

end

/-- Gift card payments of an order. -/
def paid (payments : List Payment) (orderId : ℕ) : ℤ :=
  ((payments.filter fun p => decide (p.orderId=orderId)).map Payment.amount).sum

end SellRight.GiftCards
