import SellRight.OrderLifecycle
import SellRight.RunHistory

/-!
# Affiliate payouts

A settle request runs in one transaction: it reads the affiliate, what the
promotion earned and was paid so far, the end of the last period, and inserts
the payout. Every statement sees what was committed before it, so the requests
of one promotion interleave statement by statement.
-/

namespace SellRight.AffiliatePayouts

open OrderLifecycle RunHistory

/-- Affiliate bound to a promotion. -/
structure Affiliate where
  (id promotionId : String)

/-- Columns of an order that earns commission. -/
structure Order where
  promotionId : Option String
  state : OrderState
  (subtotal discountTotal : ℤ)

/-- Recorded payout. -/
structure Payout where
  promotionId : String
  amountCents : ℤ
  /-- End of the previous period, absent on the first payout. -/
  periodStartAt : Option ℤ
  periodEndAt : ℤ
  deriving DecidableEq

/-- Percentage of the discounted subtotal that is paid. -/
def commissionPct : ℤ := 10

/-- States that earn commission. -/
def commissionStates : List OrderState := [.paid,.partiallyRefunded]

def commissionBasis (o : Order) : ℤ := max (o.subtotal-o.discountTotal) 0

def earns (promotionId : String) (o : Order) : Bool :=
  decide (o.promotionId=some promotionId∧o.state∈commissionStates)

/-- Discounted subtotals that earn commission. -/
def subtotals (orders : List Order) (promotionId : String) : ℤ :=
  ((orders.filter (earns promotionId)).map commissionBasis).sum

/-- Commission on the subtotals, rounded half up to a cent. -/
def commission (cents : ℤ) : ℤ := (cents*commissionPct+50) / 100

/-- Payouts recorded for the promotion. -/
def settledTotal (payouts : List Payout) (promotionId : String) : ℤ :=
  ((payouts.filter fun p => decide (p.promotionId=promotionId)).map Payout.amountCents).sum

/-- A sum fits the integer type it is cast to. -/
def fitsInt (n : ℤ) : Bool := decide (-2147483648≤n∧n≤2147483647)

/-- Amounts of a promotion. -/
structure Amounts where
  (earned settled unsettled : ℤ)

/-- Earned and settled amounts of a promotion; nothing when a sum does not fit
its integer cast. -/
def affiliateAmounts (orders : List Order) (payouts : List Payout) (promotionId : String) :
    Option Amounts :=
  let basis := subtotals orders promotionId
  let settled := settledTotal payouts promotionId
  if fitsInt basis&&fitsInt settled then
    some ⟨commission basis,settled,commission basis-settled⟩
  else none

/-- Latest period end recorded for the promotion. -/
def latestEnd (promotionId : String) : List Payout → Option ℤ
  | [] => none
  | p::rest =>
    if p.promotionId=promotionId then
      some ((latestEnd promotionId rest).elim p.periodEndAt (max p.periodEndAt))
    else latestEnd promotionId rest

/-- How far the transaction of a settle request got. -/
inductive Phase where
  | opened (promotionId : String) (amountCents : Option ℤ)
  /-- The amounts were read and the payout is within them. -/
  | measured (promotionId : String) (settled pay : ℤ)
  | placed (promotionId : String) (settled pay : ℤ) (periodStartAt : Option ℤ)
  | inserted (settled : ℤ) (row : Payout)

/-- Committed rows and open requests. -/
structure Store where
  affiliates : List Affiliate
  orders : List Order
  payouts : List Payout
  requests : ℕ → Option Phase

/-- Statements of settle requests. -/
inductive Action where
  | start (request : ℕ) (affiliateId : String) (amountCents : Option ℤ)
  /-- Read the amounts and check the payout against them. -/
  | readAmounts (request : ℕ)
  | readPrevious (request : ℕ)
  | insert (request : ℕ) (now : ℤ)
  | commit (request : ℕ)
  | abort (request : ℕ)

/-- Answers of a statement or of the request it ends. -/
inductive Answer where
  | continues
  | notFound
  /-- The payout is not within the outstanding amount. -/
  | bad (max : ℤ)
  | outOfRange
  | settled (cents : ℤ)
  | aborted
  | idle
  deriving DecidableEq

/-- Move a request to a phase, or end it. -/
def Store.move (s : Store) (request : ℕ) (phase : Option Phase) : Store :=
  {s with requests := Function.update s.requests request phase}

/-- Read the amounts for a request. -/
def measure (s : Store) (request : ℕ) (promotionId : String) (amountCents : Option ℤ) :
    Answer×Store :=
  match affiliateAmounts s.orders s.payouts promotionId with
  | none => (.outOfRange,s.move request none)
  | some amounts =>
    let pay := amountCents.getD amounts.unsettled
    if pay≤0∨amounts.unsettled<pay then (.bad amounts.unsettled,s.move request none)
    else (.continues,s.move request (some (.measured promotionId amounts.settled pay)))

/-- Carry out one statement. -/
def step (s : Store) : Action → Answer×Store
  | .start request affiliateId amountCents =>
    match s.requests request with
    | some _ => (.idle,s)
    | none =>
      match s.affiliates.find? fun a => decide (a.id=affiliateId) with
      | none => (.notFound,s)
      | some a => (.continues,s.move request (some (.opened a.promotionId amountCents)))
  | .readAmounts request =>
    match s.requests request with
    | some (.opened promotionId amountCents) => measure s request promotionId amountCents
    | _ => (.idle,s)
  | .readPrevious request =>
    match s.requests request with
    | some (.measured promotionId settled pay) =>
      (.continues,
        s.move request (some (.placed promotionId settled pay (latestEnd promotionId s.payouts))))
    | _ => (.idle,s)
  | .insert request now =>
    match s.requests request with
    | some (.placed promotionId settled pay periodStartAt) =>
      (.continues,s.move request (some (.inserted settled ⟨promotionId,pay,periodStartAt,now⟩)))
    | _ => (.idle,s)
  | .commit request =>
    match s.requests request with
    | some (.inserted _ row) =>
      (.settled row.amountCents,{s.move request none with payouts := s.payouts++[row]})
    | _ => (.idle,s)
  | .abort request =>
    match s.requests request with
    | some _ => (.aborted,s.move request none)
    | none => (.idle,s)

end SellRight.AffiliatePayouts
