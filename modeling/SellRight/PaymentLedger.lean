import SellRight.OrderLifecycle
import Mathlib.Algebra.BigOperators.Group.Finset.Basic

/-!
# Payments, refunds and edits of an order

The rows money is counted from, and the amount an order still owes. Flagged
duplicate captures are refundable but never count as tender. A refund of an
order edit is added back, unless it belongs to an edit that is staged and not
activated yet.
-/

namespace SellRight.PaymentLedger

open OrderLifecycle List

inductive PaymentState where
  | pending | authorized | settled | declined | failed
  deriving DecidableEq

/-- Row of the payment table. -/
structure Payment where
  (id orderId : String)
  amount : ℤ
  method : String
  providerRef : Option String
  state : PaymentState
  (gatewayAccount gatewayMode currency : Option String)
  /-- Flagged as the duplicate capture of a covered order. -/
  duplicate : Bool
  errorMessage : Option String
  createdAt : ℤ
  deriving DecidableEq

/-- Row of the refund table. -/
structure Refund where
  id : String
  attemptId : Option String
  (paymentId orderId : String)
  (amount itemsAmount shippingAmount adjustmentAmount : ℤ)
  state : RefundState
  (reason providerRef source returnId : Option String)
  deriving DecidableEq

/-- Settlement record of an order edit. -/
structure EditSettlement where
  /-- Phase of a staged edit, absent on an edit that was never staged. -/
  phase : Option String
  (refundId paymentAttemptId : Option String)

/-- Row of the order edit table. -/
structure OrderEdit where
  (id orderId : String)
  settlement : Option EditSettlement

/-- Provenance of a refund that hands back the difference of a lowered order
total. -/
def editRefundSource : String := "order_edit"

/-- The refund belongs to an order edit. -/
def isEditRefund (r : Refund) : Bool := decide (r.source=some editRefundSource)

/-- Phases of a staged edit that is not activated. -/
def pendingPhases : List String :=
  ["prepared", "awaiting_refund", "awaiting_tender", "ready", "failed"]

/-- The edit is staged and not activated. -/
def isPendingEditStage (settlement : Option EditSettlement) : Bool :=
  match settlement.bind EditSettlement.phase with
  | some phase => decide (phase∈pendingPhases)
  | none => false

/-- A settled payment that is no flagged duplicate. -/
def usableTender (p : Payment) : Bool := decide (p.state=.settled) && !p.duplicate

/-- The refund of an edit is linked to an edit whose stage is not activated. -/
def awaitsActivation (edits : List OrderEdit) (r : Refund) : Bool := edits.any fun edit =>
    match edit.settlement with
    | some settlement =>
      match settlement.phase with
      | some phase =>
        decide (edit.orderId=r.orderId∧settlement.refundId=some r.id∧phase ≠ "activated")
      | none => false
    | none => false

/-- An edit refund of the order that returned money, or may still return it. -/
def countsAsEditRefund (edits : List OrderEdit) (orderId : String) (r : Refund) : Bool :=
  decide (r.orderId=orderId)&&decide (r.state≠.failed)&&isEditRefund r && !awaitsActivation edits r

/-- Money handed back because an edit lowered the order total. -/
def editRefundedTotal (refunds : List Refund) (edits : List OrderEdit) (orderId : String) : ℤ :=
  ((refunds.filter (countsAsEditRefund edits orderId)).map Refund.amount).sum

section
variable (payments : List Payment)

/-- Money of the order's usable tenders. -/
def settledTotal (orderId : String) : ℤ :=
  ((payments.filter fun p => decide (p.orderId=orderId)&&usableTender p).map Payment.amount).sum

/-- Amount still owed on an order. -/
def amountDueForOrder (refunds : List Refund) (edits : List OrderEdit)
    (orderId : String) (grandTotal : ℤ) : ℤ :=
  grandTotal-settledTotal payments orderId+editRefundedTotal refunds edits orderId

theorem settledTotal_append (orderId : String) (p : Payment) :
    settledTotal (payments++[p]) orderId=settledTotal payments orderId +
        if decide (p.orderId=orderId)&&usableTender p then p.amount else 0 := by
  unfold settledTotal
  by_cases hct : (decide (p.orderId=orderId)&&usableTender p)=true
  · simp [hct]
  · simp [hct]

end

/-- Without refunds of the order nothing was handed back. -/
theorem editRefundedTotal_none {refunds : List Refund} (edits : List OrderEdit) {orderId : String}
    (hno : ∀ r∈refunds, r.orderId≠orderId) : editRefundedTotal refunds edits orderId=0 := by
  have hfil : refunds.filter (countsAsEditRefund edits orderId)=[] := by
    rw [filter_eq_nil_iff]
    intro r hr
    simp [countsAsEditRefund,hno r hr]
  simp [editRefundedTotal,hfil]

end SellRight.PaymentLedger
