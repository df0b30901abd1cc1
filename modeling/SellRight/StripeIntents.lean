import SellRight.PaymentSettlement

/-!
# PaymentIntents applied to orders

Every PaymentIntent of an order has an attempt row, bound to the intent before
or when its first snapshot arrives. A snapshot, from a webhook or from a
retrieve, is applied to the order in one transaction: it moves the attempt,
settles the order through the payment result path, or records a second capture
as a duplicate. Reservations released when an intent is cancelled live in other
tables.
-/

namespace SellRight.StripeIntents

open OrderLifecycle PaymentLedger PaymentSettlement RowTable

/-- Status of a PaymentIntent at Stripe. -/
inductive IntentStatus where
  | succeeded | processing | requiresCapture | requiresAction | requiresPaymentMethod
  | requiresConfirmation | canceled
  deriving DecidableEq

def IntentStatus.text : IntentStatus → String
  | .succeeded => "succeeded"
  | .processing => "processing"
  | .requiresCapture => "requires_capture"
  | .requiresAction => "requires_action"
  | .requiresPaymentMethod => "requires_payment_method"
  | .requiresConfirmation => "requires_confirmation"
  | .canceled => "canceled"

/-- Snapshot of a PaymentIntent. -/
structure StripeIntent where
  id : String
  named : id ≠ ""
  amount : ℤ
  currency : String
  status : IntentStatus
  (orderCode lastPaymentError : Option String)

/-- Status of an attempt that tracks an intent; `opened` is stored as open. -/
inductive AttemptStatus where
  | opened | processing | actionRequired | failed | unknown | pending | settled | cancelled
  deriving DecidableEq

/-- Row of an attempt that tracks an intent. -/
structure Attempt where
  (id orderId idempotencyKey : String)
  providerRef : Option String
  amount : ℤ
  (currency mode : String)
  status : AttemptStatus
  paymentId : Option String

/-- Kinds of operator alerts. -/
inductive AlertKind where
  | stripeVerifyFailed | duplicatePayment

/-- Alert recorded for the operators. -/
structure PaymentAlert where
  kind : AlertKind
  (orderId providerRef : String)
  amount : ℤ

/-- Tables of one store that intents read and write. -/
structure Database where
  ledger : Store
  /-- Order codes with the identifiers of their orders. -/
  codes : List (String×String)
  attempts : List Attempt
  alerts : List PaymentAlert

/-- Code outside of the intent path. -/
structure World where
  settlement : PaymentSettlement.World
  /-- Additional tender a pending staged edit waits for. -/
  editTender : OrderEdit → Option ℤ

/-- Why a step is rolled back. -/
inductive StripeError where
  | settlement (e : SettlementError)
  | attemptMissing
  /-- A pre-mint attempt is missing or belongs to another order. -/
  | preMintMissing
  | preMintUnbound
  | notCancellable
  deriving DecidableEq

/-- Answers of applying a snapshot. -/
inductive IntentOutcome where
  | settled | alreadySettled | afterCancel | duplicate | verifyFailed | held | actionRequired
  | failed | cancelled | opened | ignored
  deriving DecidableEq

/-- One application of a snapshot, with the values it draws. -/
structure Application where
  intent : StripeIntent
  (mode attemptId paymentId : String)
  ambient : Ambient

def toUpperCase (text : String) : String := String.ofList (text.toList.map Char.toUpper)

def tracks (intentId : String) (a : Attempt) : Bool := decide (a.providerRef=some intentId)

variable (db : Database)

/-- Record a minted intent against its order. An attempt bound to the intent
before is returned as it is. -/
def trackStripeIntent (orderId intentId : String) (amount : ℤ)
    (currency mode attemptId : String) : Except StripeError (Attempt×Database) :=
  match db.attempts.find? (tracks intentId) with
  | some bound => .ok (bound,db)
  | none =>
    let row : Attempt :=
      { id := attemptId
        orderId := orderId
        idempotencyKey := "stripe-pi:" ++ intentId
        providerRef := some intentId
        amount := max 1 amount
        currency := toUpperCase currency
        mode := mode
        status := .opened
        paymentId := none}
    if db.attempts.any fun a => decide (a.idempotencyKey=row.idempotencyKey) then
      .error .attemptMissing
    else .ok (row,{db with attempts := db.attempts++[row]})

/-- Write the attempt of a mint before the intent exists. -/
def openStripePreMint (orderId iterationKey : String) (amount : ℤ)
    (currency mode attemptId : String) : Except StripeError (Attempt×Database) :=
  let key := "stripe-pi-pending:" ++ iterationKey
  match db.attempts.find? fun a => decide (a.idempotencyKey=key) with
  | some row => if row.orderId=orderId then .ok (row,db) else .error .preMintMissing
  | none =>
    let row : Attempt :=
      { id := attemptId
        orderId := orderId
        idempotencyKey := key
        providerRef := none
        amount := max 1 amount
        currency := toUpperCase currency
        mode := mode
        status := .opened
        paymentId := none}
    .ok (row,{db with attempts := db.attempts++[row]})

/-- The row is the pre-mint attempt, not bound to an intent yet. -/
def isUnbound (pendingAttemptId : String) (a : Attempt) : Bool :=
  decide (a.id=pendingAttemptId∧a.providerRef=none)

/-- Bind a pre-mint attempt to the intent it minted. When another attempt
tracks the intent, the pre-mint attempt is cancelled. -/
def bindStripePreMint (pendingAttemptId orderId intentId : String) :
    Except StripeError (Attempt×Database) :=
  match db.attempts.find? (tracks intentId) with
  | some bound =>
    if bound.id=pendingAttemptId then .ok (bound,db)
    else
      .ok (bound,{db with
        attempts := updateWhere (isUnbound pendingAttemptId)
          (fun a => {a with status := .cancelled}) db.attempts})
  | none =>
    match db.attempts.find? fun a =>
        isUnbound pendingAttemptId a&&decide (a.orderId=orderId) with
    | none => .error .preMintUnbound
    | some row =>
      .ok ({row with providerRef := some intentId},{db with
        attempts := updateWhere (fun a => isUnbound pendingAttemptId a&&decide (a.orderId=orderId))
          (fun a => {a with providerRef := some intentId}) db.attempts})

/-- Columns of an attempt moved to a status. -/
def restatused (status : AttemptStatus) (paymentId : Option String) (a : Attempt) : Attempt :=
  {a with
    status := status
    paymentId := paymentId.or a.paymentId}

/-- Move an attempt. A settled attempt never moves again. -/
def setAttempt (attempt : Attempt) (status : AttemptStatus)
    (paymentId : Option String) : Database :=
  if attempt.status=.settled∧status≠.settled then db
  else
    {db with
      attempts := updateWhere (fun a => decide (a.id=attempt.id)) (restatused status paymentId)
        db.attempts}

/-- Stored payment of an intent. -/
def stripePaymentFor (intentId : String) : Option Payment :=
  db.ledger.payments.find? fun p => decide (p.method = "stripe" ∧ p.providerRef=some intentId)

/-- Record an alert for the operators. -/
def recordPaymentAlert (kind : AlertKind) (o : Order) (pi : StripeIntent) :
    Database :=
  {db with alerts := db.alerts++[⟨kind,o.id,pi.id,pi.amount⟩]}

/-- Result reported for an intent. -/
def intentResult (pi : StripeIntent) (mode : String) (state : PaymentState)
    (errorMessage : Option String) : PaymentResult :=
  ⟨state,some pi.id,none,some mode,false,errorMessage⟩

/-- Decide what an intent means for an order: its amount, currency and order
must match. -/
def verifyIntent (pi : StripeIntent) (orderCode : String) (amount : ℤ) (currency mode : String) :
    PaymentResult :=
  if pi.amount≠amount∨toUpperCase pi.currency≠toUpperCase currency then
    intentResult pi mode .failed (some "amount/currency mismatch")
  else if pi.orderCode≠some orderCode then
    intentResult pi mode .failed (some "order mismatch")
  else
    match pi.status with
    | .succeeded => intentResult pi mode .settled none
    | .requiresCapture => intentResult pi mode .authorized none
    | .processing => intentResult pi mode .pending none
    | status => intentResult pi mode .declined (some ("status: " ++ status.text))

def intentDelivery (i : Application) (o : Order) (attempt : Option Attempt) (amount : ℤ)
    (result : PaymentResult) : Delivery :=
  { orderId := o.id
    method := "stripe"
    result := result
    amount := some amount
    editId := none
    paymentAttemptId := attempt.map Attempt.id
    paymentId := i.paymentId
    ambient := i.ambient}

section
variable (w : World) (db : Database)

/-- Apply a result to the order. -/
def applyResult (d : Delivery) : Except StripeError (Settled×Database) :=
  match applyPaymentResult w.settlement db.ledger d with
  | .error e => .error (.settlement e)
  | .ok (answer,written) => .ok (answer,{db with ledger := written})

/-- A succeeded intent of an imported order: the amount due is unknown, so only
currency and order must match. -/
def applyImported (o : Order) (code : String) (attempt : Attempt)
    (i : Application) : Except StripeError (IntentOutcome×Database) :=
  if (verifyIntent i.intent code i.intent.amount o.currency i.mode).state≠.settled then
    let moved := setAttempt db attempt .unknown none
    .ok (.verifyFailed,
      if attempt.status=.unknown then moved
      else recordPaymentAlert moved .stripeVerifyFailed o i.intent)
  else
    match applyResult w db (intentDelivery i o (some attempt) i.intent.amount
        (intentResult i.intent i.mode .settled none)) with
    | .error e => .error e
    | .ok (_,paid) =>
      .ok (if (stripePaymentFor db i.intent.id).map Payment.state=some .settled then
          .alreadySettled
        else .settled,
        setAttempt paid attempt .settled ((stripePaymentFor paid i.intent.id).map Payment.id))

/-- A succeeded intent whose payment is on the ledger. -/
def applySettledAgain (o : Order) (attempt : Attempt)
    (existing : Payment) (i : Application) : Except StripeError (IntentOutcome×Database) :=
  let moved := setAttempt db attempt .settled (some existing.id)
  match applyResult w moved (intentDelivery i o (some attempt) existing.amount
      (intentResult i.intent i.mode .settled none)) with
  | .error e => .error e
  | .ok (_,applied) => .ok (.alreadySettled,applied)

end

/-- Orders in these states accept money. -/
def payable (state : OrderState) : Bool :=
  decide (state=.pendingPayment∨state=.cancelled∨state=.paid ∨ state=.partiallyRefunded)

section
variable (w : World) (db : Database)

/-- Tender of the pending staged edit that is bound to the attempt. -/
def linkedEditTender (orderId : String) (attempt : Attempt) : Option ℤ :=
  match db.ledger.edits.find? fun edit =>
      decide (edit.orderId=orderId)&&isPendingEditStage edit.settlement with
  | none => none
  | some edit =>
    if edit.settlement.bind EditSettlement.paymentAttemptId=some attempt.id then
      w.editTender edit
    else none

/-- Amount the order still takes from the attempt. -/
def amountDue (o : Order) (attempt : Attempt) : ℤ :=
  if payable o.state then
    (linkedEditTender w db o.id attempt).getD
      (amountDueForOrder db.ledger.payments db.ledger.refunds db.ledger.edits o.id o.grandTotal)
  else 0

/-- A succeeded intent of an order that takes money. Captured money that fails
verification is held as unknown. -/
def applyDue (o : Order) (code : String) (attempt : Attempt)
    (due : ℤ) (i : Application) : Except StripeError (IntentOutcome×Database) :=
  let result := verifyIntent i.intent code due o.currency i.mode
  if result.state=.settled then
    match applyResult w db (intentDelivery i o (some attempt) due result) with
    | .error e => .error e
    | .ok (_,paid) =>
      .ok (if o.state=.cancelled then .afterCancel else .settled,
        setAttempt paid attempt .settled ((stripePaymentFor paid i.intent.id).map Payment.id))
  else if attempt.status=.unknown then .ok (.verifyFailed,db)
  else
    .ok (.verifyFailed,
      recordPaymentAlert (setAttempt db attempt .unknown none) .stripeVerifyFailed o i.intent)

end

/-- Ledger row of a second capture. -/
def duplicateRow (o : Order) (i : Application) : Payment :=
  { id := i.paymentId
    orderId := o.id
    amount := i.intent.amount
    method := "stripe"
    providerRef := some i.intent.id
    state := .settled
    gatewayAccount := none
    gatewayMode := some i.mode
    currency := some (toUpperCase i.intent.currency)
    duplicate := true
    errorMessage := some "duplicate payment — order was already covered"
    createdAt := i.ambient.now}

section
variable (w : World) (db : Database) (o : Order)

/-- A succeeded intent the order no longer needs is recorded as a duplicate. -/
def applyDuplicate (attempt : Attempt) (i : Application) :
    Except StripeError (IntentOutcome×Database) :=
  match recordSettlementOperation w.settlement i.ambient db.ledger
      ⟨.duplicateCaptureRecorded,i.paymentId,none,.paymentInsert (duplicateRow o i),[]⟩ with
  | .error e => .error (.settlement e)
  | .ok (recorded,written) =>
    let stored : Database := {db with ledger := written}
    let paymentId :=
      if recorded.created then some i.paymentId
      else (stripePaymentFor stored i.intent.id).map Payment.id
    let moved := setAttempt stored attempt .settled paymentId
    .ok (.duplicate,
      if recorded.created then recordPaymentAlert moved .duplicatePayment o i.intent else moved)

def applySucceeded (code : String) (attempt : Attempt)
    (i : Application) : Except StripeError (IntentOutcome×Database) :=
  if o.reconciliationRequired then applyImported w db o code attempt i
  else
    match (stripePaymentFor db i.intent.id).filter fun p => decide (p.state=.settled) with
    | some existing => applySettledAgain w db o attempt existing i
    | none =>
      if 0<amountDue w db o attempt then
        applyDue w db o code attempt (amountDue w db o attempt) i
      else applyDuplicate w db o attempt i

/-- Apply a cancelled intent: a payment that was waiting is declined. -/
def applyCanceled (attempt : Attempt) (i : Application) :
    Except StripeError (IntentOutcome×Database) :=
  let moved := setAttempt db attempt .cancelled none
  match (stripePaymentFor db i.intent.id).filter fun p => decide (p.state=.pending) with
  | some existing =>
    match applyResult w moved (intentDelivery i o none existing.amount
        (intentResult i.intent i.mode .declined (some "payment intent canceled"))) with
    | .error e => .error e
    | .ok (_,applied) => .ok (.cancelled,applied)
  | none => .ok (.cancelled,moved)

/-- Apply an intent whose last confirmation failed. -/
def applyFailed (attempt : Attempt) (i : Application) :
    Except StripeError (IntentOutcome×Database) :=
  let moved := setAttempt db attempt .failed none
  let existing := stripePaymentFor db i.intent.id
  if o.state=.pendingPayment∧existing.map Payment.state≠some .settled then
    match applyResult w moved (intentDelivery i o none
        ((existing.map Payment.amount).getD i.intent.amount)
        (intentResult i.intent i.mode .declined
          (some (i.intent.lastPaymentError.getD "payment failed")))) with
    | .error e => .error e
    | .ok (_,applied) => .ok (.failed,applied)
  else .ok (.failed,moved)

end

/-- Apply an intent that waits for the shopper. -/
def applyOpen (attempt : Attempt) : IntentOutcome×Database :=
  (.opened,if attempt.status=.failed then db else setAttempt db attempt .opened none)

/-- Apply an intent that asks for a payment method: it failed when it carries
an error or when a payment was waiting. -/
def applyPaymentMethod (w : World) (db : Database) (o : Order) (attempt : Attempt)
    (i : Application) : Except StripeError (IntentOutcome×Database) :=
  if i.intent.lastPaymentError.getD "" ≠ "" ∨
      (stripePaymentFor db i.intent.id).map Payment.state=some .pending then
    applyFailed w db o attempt i
  else .ok (applyOpen db attempt)

/-- Apply a snapshot to its order and attempt. -/
def applyStatus (w : World) (db : Database) (o : Order) (code : String) (attempt : Attempt)
    (i : Application) : Except StripeError (IntentOutcome×Database) :=
  match i.intent.status with
  | .succeeded => applySucceeded w db o code attempt i
  | .requiresAction => .ok (.actionRequired,setAttempt db attempt .actionRequired none)
  | .processing | .requiresCapture => .ok (.held,setAttempt db attempt .processing none)
  | .canceled => applyCanceled w db o attempt i
  | .requiresPaymentMethod => applyPaymentMethod w db o attempt i
  | .requiresConfirmation => .ok (applyOpen db attempt)

/-- Order a code belongs to. -/
def orderOfCode (code : String) : Option Order :=
  match db.codes.find? fun entry => decide (entry.1=code) with
  | none => none
  | some entry => findOrder db.ledger entry.2

/-- Order a snapshot names in its metadata. -/
def namedOrder (pi : StripeIntent) : Option (String×Order) :=
  match pi.orderCode with
  | none => none
  | some code => if code = "" then none else (orderOfCode db code).map fun o => (code,o)

/-- Apply one snapshot to the order it names. -/
def applyStripeIntent (w : World) (db : Database) (i : Application) :
    Except StripeError (IntentOutcome×Database) :=
  match namedOrder db i.intent with
  | none => .ok (.ignored,db)
  | some (code,o) =>
    match trackStripeIntent db o.id i.intent.id i.intent.amount
        (if o.reconciliationRequired then i.intent.currency else o.currency) i.mode i.attemptId with
    | .error e => .error e
    | .ok (attempt,tracked) =>
      if attempt.orderId≠o.id then .ok (.ignored,tracked)
      else applyStatus w tracked o code attempt i

/-- Attempt statuses that keep an unpaid order. -/
def holdsOrder (status : AttemptStatus) : Bool :=
  decide (status∈[.processing,.unknown,.pending,.opened,.failed,.actionRequired])

/-- The order may be cancelled as unpaid. Its age and the discovery of other
intents are known to the caller. -/
def unpaidCancellable (o : Order) (due : Bool) : Bool :=
  decide (o.state=.pendingPayment)&&due && !o.reconciliationRequired &&
    !(db.attempts.any fun a => decide (a.orderId=o.id)&&holdsOrder a.status) &&
    !(db.ledger.payments.any fun p =>
      decide (p.orderId=o.id∧(p.state=.pending∨p.state=.authorized)))

def cancelUnpaidOrder (orderId : String) (due : Bool) :
    Except StripeError Database :=
  match findOrder db.ledger orderId with
  | none => .error .notCancellable
  | some o =>
    if unpaidCancellable db o due then
      .ok {db with
        ledger := {db.ledger with
          orders := updateWhere (fun row => decide (row.id=orderId))
            (fun row => {row with state := .cancelled}) db.ledger.orders}}
    else .error .notCancellable

/-- Steps of a store that takes Stripe payments. -/
inductive Action where
  | apply (i : Application)
  | preMint (orderId iterationKey : String) (amount : ℤ) (currency mode attemptId : String)
  | bind (pendingAttemptId orderId intentId : String)
  | cancelUnpaid (orderId : String) (due : Bool)

/-- Carry out a step; a failed one is rolled back. -/
def step (w : World) (db : Database) : Action → Except StripeError IntentOutcome×Database
  | .apply i =>
    match applyStripeIntent w db i with
    | .error e => (.error e,db)
    | .ok (outcome,written) => (.ok outcome,written)
  | .preMint orderId iterationKey amount currency mode attemptId =>
    match openStripePreMint db orderId iterationKey amount currency mode attemptId with
    | .error e => (.error e,db)
    | .ok (_,written) => (.ok .opened,written)
  | .bind pendingAttemptId orderId intentId =>
    match bindStripePreMint db pendingAttemptId orderId intentId with
    | .error e => (.error e,db)
    | .ok (_,written) => (.ok .opened,written)
  | .cancelUnpaid orderId due =>
    match cancelUnpaidOrder db orderId due with
    | .error e => (.error e,db)
    | .ok written => (.ok .cancelled,written)

end SellRight.StripeIntents
