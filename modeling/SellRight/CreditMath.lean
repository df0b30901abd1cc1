import SellRight.KeyedRecord

/-!
# Account-credit rows and arithmetic

Rows of the credit tables with the columns the ledger code reads, the error
type of the credit service, and its integer-cents helpers: `assertCents`,
`availableCredit`, `validateAllocation` and `equalAllocation`. Cents are
exact integers; a column value is always one, so a test for a safe integer
is kept only where a sum could leave that range.
-/

namespace SellRight.CreditMath

open KeyedRecord List

/-- Kind of a credit transaction. -/
inductive CreditKind where
  | issue | adjust | disable | enable | reserve | release | redeem | restore
  deriving DecidableEq

/-- Status of a credit transaction. -/
inductive CreditStatus where
  | pending | posted | void
  deriving DecidableEq

/-- Cents of each unit of each order line, by line id. -/
abbrev Allocation := Record String (List Int)

/-- A row of `account_credit`. -/
structure CreditAccount where
  (id promotionId currency emailNormalized issuanceKey : String)
  (initialAmount balance : Int)
  disabled : Bool
  sourcePromotionRecord : Option String

/-- A row of `account_credit_transaction`. -/
structure CreditTransaction where
  (id accountCreditId : String)
  kind : CreditKind
  status : CreditStatus
  (amount delta : Int)
  balanceAfter : Option Int
  relatedTransactionId : Option String
  idempotencyKey : String
  (reason actor orderId orderCode refundId orderLineId : Option String)
  quantity : Option Int
  allocation : Option String
  operationalAllocation : Option Allocation
  deriving DecidableEq

inductive CreditErrorCode where
  | invalidInput | missing | unavailable | conflict | allocation | invariant

/-- Error thrown by the credit service. -/
structure AccountCreditError where
  code : CreditErrorCode
  message : String

/-- Result of a credit operation. -/
abbrev CreditResult := Except AccountCreditError

/-- Largest stored amount of cents. -/
def maxCreditCents : Int := 2147483647

/-- Largest exact integer of the runtime. -/
def maxSafeInteger : Int := 9007199254740991

/-- Refuse an amount outside the stored range. -/
def assertCents (value : Int) (label : String) (positive : Bool) : CreditResult Unit :=
  if value<(if positive then 1 else 0)∨maxCreditCents<value then
    .error ⟨.invalidInput,label ++ " must fit " ++
      (if positive then "positive" else "nonnegative") ++ " integer cents"⟩
  else .ok ()

/-- A hold: its cents and its order. -/
structure Hold where
  amount : Int
  orderId : Option String

/-- Cents held by the other orders. -/
def heldCents (exceptOrderId : Option String) : List Hold → Int → CreditResult Int
  | [],held => .ok held
  | hold::holds, held => do
    assertCents hold.amount "Hold" false
    if exceptOrderId.isSome∧hold.orderId=exceptOrderId then
      heldCents exceptOrderId holds held
    else if maxSafeInteger<held+hold.amount then
      .error ⟨.invariant, "Held credit overflow"⟩
    else heldCents exceptOrderId holds (held+hold.amount)

/-- Balance less the holds, leaving out those of one order. -/
def availableCredit (balance : Int) (holds : List Hold) (exceptOrderId : Option String) :
    CreditResult Int := do
  assertCents balance "Balance" false
  let held ← heldCents exceptOrderId holds 0
  if balance<held then .error ⟨.invariant, "Pending holds exceed balance"⟩
  else .ok (balance-held)

/-- An order line with its billed quantity. -/
structure BilledLine where
  id : String
  quantity : Int

/-- Total of unit cents added one by one. -/
def addUnits : List Int → Int → CreditResult Int
  | [],total => .ok total
  | cents::units, total => do
    assertCents cents "Unit allocation" false
    if maxCreditCents<total+cents then .error ⟨.allocation, "Credit allocation overflow"⟩
    else addUnits units (total+cents)

/-- Total of the allocation over the purchased lines. -/
def addLines (allocation : Allocation) : List BilledLine → Int → CreditResult Int
  | [],total => .ok total
  | line::lines, total =>
    match allocation.get line.id with
    | some units =>
      if 1≤line.quantity∧(units.length : Int)=line.quantity then do
        let total ← addUnits units total
        addLines allocation lines total
      else .error ⟨.allocation, "Credit unit allocation missing at settlement"⟩
    | none => .error ⟨.allocation, "Credit unit allocation missing at settlement"⟩

/-- Check exact per-unit cents of the purchased lines. -/
def validateAllocation (allocation : Allocation) (lines : List BilledLine) (applied : Int) :
    CreditResult Unit := do
  assertCents applied "Applied amount" false
  if allocation.entries.length≠lines.length then
    .error ⟨.allocation, "Credit allocation must cover exactly the purchased lines"⟩
  else
    let total ← addLines allocation lines 0
    if total≠applied then
      .error ⟨.allocation, "Credit allocation does not match redemption"⟩
    else .ok ()

/-- Same units on the same lines. -/
def equalAllocation (a : Option Allocation) (b : Allocation) : Bool :=
  match a with
  | none => false
  | some a => decide (a.entries.length=b.entries.length) &&
      a.entries.all fun entry => decide (b.get entry.1=some entry.2)

/-- An accepted amount lies in the stored range. -/
theorem assertCents_eq_ok {value : Int} {label : String} {positive : Bool} :
    assertCents value label positive=.ok () ↔
      (if positive then 1 else 0)≤value∧value ≤ maxCreditCents := by
  rw [assertCents]
  by_cases hbad : value<(if positive then 1 else 0)∨maxCreditCents<value
  · rw [if_pos hbad]
    simp only [reduceCtorEq,false_iff,not_and,not_le]
    omega
  · rw [if_neg hbad]
    simp only [true_iff]
    omega

/-- Cents of the holds that count against an order. -/
def countedHolds (exceptOrderId : Option String) (holds : List Hold) : List Int :=
  (holds.filter fun hold => ¬(exceptOrderId.isSome∧hold.orderId=exceptOrderId)).map Hold.amount

variable {exceptOrderId : Option String}

/-- Holds in range whose sum stays exact add up. -/
theorem heldCents_eq_ok {holds : List Hold} {held : Int}
    (hran : ∀ hold∈holds, 0≤hold.amount∧hold.amount ≤ maxCreditCents)
    (hsf : held+(countedHolds exceptOrderId holds).sum ≤ maxSafeInteger) :
    heldCents exceptOrderId holds held=.ok (held+(countedHolds exceptOrderId holds).sum) := by
  induction holds generalizing held with
  | nil => simp [heldCents,countedHolds]
  | cons hold holds ih =>
    have hhol := hran hold (by simp)
    have hrt : ∀ other∈holds, 0≤other.amount∧other.amount ≤ maxCreditCents := by
      intro other hot
      exact hran other (by simp [hot])
    have hnon : 0≤(countedHolds exceptOrderId holds).sum := by
      apply sum_nonneg
      intro cents hcen
      obtain ⟨other,hot,rfl⟩ := mem_map.mp hcen
      exact (hrt other (mem_of_mem_filter hot)).1
    have hcen : assertCents hold.amount "Hold" false=.ok () :=
      assertCents_eq_ok.mpr (by simpa using hhol)
    rw [heldCents,hcen]
    change (if exceptOrderId.isSome∧hold.orderId=exceptOrderId then _ else _)=_
    by_cases hski : exceptOrderId.isSome∧hold.orderId=exceptOrderId
    · have hct : countedHolds exceptOrderId (hold::holds)=countedHolds exceptOrderId holds := by
        simp [countedHolds,hski.1,hski.2]
      rw [if_pos hski,hct]
      rw [hct] at hsf
      exact ih hrt hsf
    · have hct : countedHolds exceptOrderId (hold::holds) =
          hold.amount::countedHolds exceptOrderId holds := by
        rw [countedHolds,filter_cons,if_pos (decide_eq_true hski)]
        rfl
      rw [hct,sum_cons] at hsf
      rw [if_neg hski,if_neg (by omega),hct,sum_cons,ih hrt (by omega)]
      congr 1
      ring

theorem availableCredit_eq_ok {balance : Int} {holds : List Hold}
    (hbal : 0≤balance∧balance ≤ maxCreditCents)
    (hran : ∀ hold∈holds, 0≤hold.amount∧hold.amount ≤ maxCreditCents)
    (hhd : (countedHolds exceptOrderId holds).sum≤balance) :
    availableCredit balance holds exceptOrderId =
      .ok (balance-(countedHolds exceptOrderId holds).sum) := by
  have hcen : assertCents balance "Balance" false=.ok () :=
    assertCents_eq_ok.mpr (by simpa using hbal)
  have hsum : heldCents exceptOrderId holds 0=.ok (0+(countedHolds exceptOrderId holds).sum) :=
    heldCents_eq_ok hran (by simp only [maxCreditCents,maxSafeInteger] at *; omega)
  rw [availableCredit,hcen,hsum]
  change (if balance<0+_ then _ else _)=_
  rw [zero_add,if_neg (by omega)]

end SellRight.CreditMath
