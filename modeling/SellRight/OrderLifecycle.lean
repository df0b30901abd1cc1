import Mathlib.Tactic

/-!
# Payment lifecycle of orders and refunds

States of orders and refunds with the allowed transitions of an order.
Shipping state lives on fulfilment records and is not part of it.
-/

namespace SellRight.OrderLifecycle

inductive OrderState where
  | pendingPayment | paid | partiallyRefunded | refunded | cancelled
  deriving DecidableEq

inductive RefundState where
  | pending | settled | failed
  deriving DecidableEq

/-- States an order may move to. -/
def orderTransitions : OrderState → List OrderState
  | .pendingPayment => [.paid,.cancelled]
  | .paid => [.partiallyRefunded,.refunded,.cancelled]
  | .partiallyRefunded => [.refunded]
  | .refunded => []
  | .cancelled => []

/-- A transition is allowed. -/
def canTransition (origin target : OrderState) : Bool :=
  decide (target∈orderTransitions origin)

end SellRight.OrderLifecycle
