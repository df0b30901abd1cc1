import SellRight.PaymentLedger
import SellRight.RowTable

/-!
# Recovery of Sezzle attempts

Recovery passes over the Sezzle attempts of one order. A pass reads the order
and the provider without a lock, decides, takes the pay lock, decides a capture
again in a transaction that persists the decision on the attempt, calls the
provider and records the outcome. It may stop between any two of these steps.
Verifications, other payments and cancellations are atomic under the pay lock.
-/

namespace SellRight.SezzleRecovery

open OrderLifecycle PaymentLedger RowTable

/-- Status of a payment attempt. -/
inductive AttemptStatus where
  | processing | unknown | pending | settled | failed
  deriving DecidableEq

/-- Decision about a capture, persisted in the context of an attempt. -/
inductive CaptureDecision where
  | capture
  | cancel (reason : String)
  deriving DecidableEq

/-- State of a payment result. -/
inductive ResultState where
  | pending | authorized | settled | declined | failed
  deriving DecidableEq

structure PaymentResult where
  state : ResultState
  providerRef : Option String
  needsReconciliation : Bool
  errorMessage : Option String

/-- Result column of an attempt. -/
structure AttemptResult where
  state : OrderState
  payment : ResultState
  message : Option String
  deriving DecidableEq

/-- Row of a Sezzle attempt. -/
structure Attempt where
  id : String
  /-- Reference sent to the provider instead of the identifier. -/
  orderReference : Option String
  providerRef : Option String
  (accountId mode : String)
  amount : ℤ
  currency : String
  status : AttemptStatus
  captureDecision : Option CaptureDecision
  paymentId : Option String
  result : Option AttemptResult
  createdAt : ℤ

/-- Row of the order with its payments, refunds and edits. -/
structure Order where
  id : String
  state : OrderState
  grandTotal : ℤ
  financialReconciliationRequired : Bool
  payments : List Payment
  refunds : List Refund
  edits : List OrderEdit

/-- Amount still owed on the order. -/
def Order.due (o : Order) : ℤ := amountDueForOrder o.payments o.refunds o.edits o.id o.grandTotal

/-- The order can be paid for exactly an amount. -/
def Order.payable (o : Order) (amount : ℤ) : Bool :=
  (decide (o.state=.pendingPayment)||decide (o.state=.paid) ||
    decide (o.state=.partiallyRefunded))&&decide (o.due=amount)

/-- Amount of money at the provider. -/
structure Money where
  amountInCents : ℤ
  currency : String
  deriving DecidableEq

/-- Capture, refund or release in the provider's ledger. -/
structure LedgerEvent where
  uuid : String
  amount : Option Money

/-- Authorization of a provider order. -/
structure Authorization where
  approved : Bool
  expiration : Option ℤ
  (captures refunds releases : List LedgerEvent)

/-- Order at the provider. -/
structure SezzleOrder where
  (uuid referenceId : String)
  orderAmount : Option Money
  checkoutStatus : Option String
  authorization : Option Authorization
  disputed : Bool

variable (order : SezzleOrder)

/-- Captures of a provider order. -/
def SezzleOrder.captures : List LedgerEvent :=
  (order.authorization.map Authorization.captures).getD []

/-- Refunds of a provider order. -/
def SezzleOrder.refunds : List LedgerEvent :=
  (order.authorization.map Authorization.refunds).getD []

/-- Releases of a provider order. -/
def SezzleOrder.releases : List LedgerEvent :=
  (order.authorization.map Authorization.releases).getD []

/-- The shopper was approved. -/
def SezzleOrder.approved : Bool :=
  order.authorization.any Authorization.approved

/-- The approval has ended. -/
def SezzleOrder.expired (clock : ℤ) : Bool :=
  (order.authorization.bind Authorization.expiration).any fun t => decide (t<clock)

/-- Reference that the provider was sent for an attempt. -/
def Attempt.reference (a : Attempt) : String := a.orderReference.getD a.id

/-- The provider order carries the reference and the amount of an attempt. -/
def SezzleOrder.belongsTo (a : Attempt) : Bool :=
  decide (order.referenceId=a.reference)&&decide (order.orderAmount=some ⟨a.amount,a.currency⟩)

/-- What a pass decided from its reads. -/
inductive SezzleDecision where
  | wait (reason : String)
  | capture
  | release (reason : String)
  | expire
  deriving DecidableEq

/-- Decision table for a session that is still unresolved. -/
def decideSezzleRecovery (a : Attempt) (payable : Bool)
    (ageMs sessionExpiryMs clock : ℤ) : SezzleDecision :=
  if order.belongsTo a=false then .wait "order_identity_or_amount_mismatch"
  else if order.captures≠[]∨order.refunds≠[]∨order.releases≠[]∨order.disputed=true then
    .wait "provider_ledger_requires_reconciliation"
  else if order.approved=true then
    if order.expired clock=false∧payable=true then .capture
    else .release (if order.expired clock=true then "authorization_expired" else "order_not_payable")
  else if sessionExpiryMs≤ageMs then .expire
  else .wait "session_open"

/-- Sum of well-formed captures. -/
def capturedTotal (currency : String) : List String → List LedgerEvent → Option ℤ
  | _, [] => some 0
  | seen, event::rest =>
    match event.amount with
    | none => none
    | some money =>
      if event.uuid = "" ∨ event.uuid∈seen∨money.amountInCents<0∨money.currency≠currency then
        none
      else (capturedTotal currency (event.uuid::seen) rest).map (money.amountInCents + ·)

/-- An ambiguous result. -/
def pendingResult (ref : String) : PaymentResult :=
  ⟨.pending,some ref,true,some "Sezzle payment requires reconciliation"⟩

/-- Result of a provider order that belongs to an attempt. -/
def settlementOf (a : Attempt) (token : String) (clock : ℤ) : PaymentResult :=
  match capturedTotal a.currency [] order.captures with
  | none => pendingResult token
  | some captured =>
    if captured≠0∧captured≠a.amount then pendingResult token
    else if order.disputed=true∨order.refunds≠[] then pendingResult token
    else if captured=0∧(order.checkoutStatus=some "denied" ∨
        order.checkoutStatus=some "deleted") then ⟨.declined,some token,false,none⟩
    else if captured=0∧order.approved=true∧order.expired clock=true then pendingResult token
    else if captured=a.amount then ⟨.settled,some token,false,none⟩
    else if order.approved=true then ⟨.authorized,some token,false,none⟩
    else ⟨.pending,some token,false,none⟩

/-- What a verification reads. -/
structure Reading where
  /-- Reference that was read before the lock. -/
  token : String
  /-- The merchant account fits the attempt. -/
  validInput : Bool
  /-- Answer of the provider; none when the call failed. -/
  answer : Option SezzleOrder
  clock : ℤ

def createPayment (a : Attempt) (r : Reading) : PaymentResult :=
  if r.validInput=false∨r.token = "" then
    ⟨.failed,none,false,some "Invalid Sezzle verification context"⟩
  else match r.answer with
    | none => pendingResult r.token
    | some order =>
      if order.uuid≠r.token∨order.belongsTo a=false then pendingResult r.token
      else settlementOf order a r.token r.clock

/-- Position of a recovery pass. -/
inductive Phase where
  | started
  | verified
  | informed (payable financialReconciliationRequired : Bool)
  | decided (decision : SezzleDecision)
  | locked (decision : SezzleDecision)
  | capturing
  | captured
  | releasing (reason : String)
  /-- It will record the attempt as declined. -/
  | closing (reason : String) (released : Bool)
  deriving DecidableEq

/-- A recovery pass over one attempt. -/
structure Pass where
  id : ℕ
  attempt : Attempt
  ref : String
  now : ℤ
  phase : Phase

/-- The order, its attempts, the open passes and the holder of the pay lock. -/
structure Shop where
  order : Option Order
  attempts : List Attempt
  passes : List Pass
  payLock : Option ℕ

/-- How a result changes the order, and how a settled attempt retries the edit
it pays for; none when the transaction fails. -/
structure World where
  applyPaymentResult : Order → Attempt → PaymentResult → Option Order
  retryPreparedEditSettlement : Order → Attempt → Option Order

inductive ProviderCall where
  | captureOrder
  | releaseOrder
  deriving DecidableEq

/-- What a step did. -/
inductive Answer where
  | ran
  | idle
  | waits
  | ended
  | called (call : ProviderCall) (attemptId : String)
  | recorded (attemptId : String) (state : ResultState)
  deriving DecidableEq

variable (s : Shop)

/-- Row of an attempt. -/
def findAttempt (id : String) : Option Attempt :=
  s.attempts.find? fun a => decide (a.id=id)

/-- Rewrite the row of an attempt. -/
def updateAttempt (id : String) (f : Attempt → Attempt) : Shop :=
  {s with attempts := updateWhere (fun a => decide (a.id=id)) f s.attempts}

/-- Status that a result gives an attempt. -/
def statusOf (result : PaymentResult) : AttemptStatus :=
  match result.state with
  | .settled => .settled
  | .failed | .declined => .failed
  | .pending | .authorized => if result.needsReconciliation=true then .unknown else .pending

/-- Payment of the order that carries a result. -/
def paymentOf (o : Order) (a : Attempt) (result : PaymentResult) : Option String :=
  result.providerRef.bind fun ref => (o.payments.find? fun p =>
    decide (p.orderId=o.id)&&decide (p.method = "sezzle")&&decide (p.providerRef=some ref) &&
      decide (p.gatewayAccount.getD "" = a.accountId)&&decide (p.gatewayMode.getD "" = a.mode)).map
        Payment.id

/-- Row of an attempt after a result. -/
def finishedRow (o : Order) (result : PaymentResult) (a : Attempt) : Attempt := {a with
    status := statusOf result
    providerRef := result.providerRef
    paymentId := (paymentOf o a result).orElse fun _ => a.paymentId
    result := some ⟨o.state,result.state,
      if statusOf result=.failed∨statusOf result=.unknown then result.errorMessage else none⟩}

variable (w : World)

/-- The order after a result; a result without a reference leaves it. -/
def appliedOrder (o : Order) (a : Attempt) (result : PaymentResult) : Option Order :=
  match result.providerRef with
  | none => some o
  | some _ => w.applyPaymentResult o a result

/-- Record a result on an attempt; none when the transaction fails. A settled
attempt keeps its row and retries the edit it pays for. -/
def finishAttempt (s : Shop) (id : String) (result : PaymentResult) :
    Option (Answer×Shop) :=
  match findAttempt s id with
  | none => none
  | some a =>
    if a.status=.settled then
      match s.order with
      | none => some (.ran,s)
      | some o => (w.retryPreparedEditSettlement o a).map fun o' => (.ran,{s with order := some o'})
    else match s.order with
      | none => none
      | some o => (appliedOrder w o a result).map fun o' =>
        (.recorded id result.state,
          updateAttempt {s with order := some o'} id (finishedRow o' result))

def findPass (id : ℕ) : Option Pass := s.passes.find? fun p => decide (p.id=id)

/-- Move a pass on. -/
def setPhase (id : ℕ) (phase : Phase) : Shop :=
  {s with passes := updateWhere (fun p => decide (p.id=id)) (fun p => {p with phase := phase}) s.passes}

/-- End a pass and let go of its lock. -/
def dropPass (id : ℕ) : Shop := {s with
    passes := deleteWhere (fun p => decide (p.id=id)) s.passes
    payLock := if s.payLock=some id then none else s.payLock}

/-- Verify an attempt: an attempt that is not settled needs the pay lock and a
reference. -/
def verifySezzleAttempt (s : Shop) (id : String) (r : Reading) : Answer×Shop :=
  match findAttempt s id with
  | none => (.idle,s)
  | some a =>
    if a.status=.settled then (finishAttempt w s id (createPayment a r)).getD (.ended,s)
    else if s.order=none then (.ended,s)
    else if s.payLock≠none then (.waits,s)
    else (finishAttempt w s id (createPayment a r)).getD (.ended,s)

/-- Status after a verification that ends the pass. -/
def isDone (id : String) : Bool :=
  (findAttempt s id).any fun a => decide (a.status=.settled)||decide (a.status=.failed)

/-- Read the unresolved attempt that a pass is about. -/
def startPass (id : ℕ) (attemptId : String) (now : ℤ) : Answer×Shop :=
  match findAttempt s attemptId with
  | none => (.idle,s)
  | some a =>
    match a.providerRef with
    | none => (.idle,s)
    | some ref =>
      if a.status=.settled∨a.status=.failed then (.idle,s)
      else (.ran,{s with passes := s.passes++[⟨id,a,ref,now,.started⟩]})

/-- A settled or failed attempt ends the pass. -/
def afterVerification (p : Pass) (answer : Answer) : Answer×Shop :=
  if isDone s p.attempt.id=true then (answer,dropPass s p.id)
  else (answer,setPhase s p.id .verified)

def verifyFirst (s : Shop) (p : Pass) (r : Reading) : Answer×Shop :=
  match verifySezzleAttempt w s p.attempt.id r with
  | (.waits,_) => (.waits,s)
  | (.ended,_) | (.idle,_) => (.ended,dropPass s p.id)
  | (answer,s') => afterVerification s' p answer

def readContext (p : Pass) : Answer×Shop :=
  match s.order with
  | none => (.ended,dropPass s p.id)
  | some o => (.ran,setPhase s p.id
    (.informed (o.payable p.attempt.amount) o.financialReconciliationRequired))

/-- What the job is allowed to do. -/
structure RecoveryOptions where
  apply : Bool
  sessionExpiryMs : ℤ

/-- Ask the provider and decide. -/
def decideUnlocked (p : Pass) (payable required : Bool) (answer : Option SezzleOrder)
    (clock : ℤ) (opts : RecoveryOptions) : Answer×Shop :=
  match answer with
  | none => (.ended,dropPass s p.id)
  | some order =>
    if order.uuid≠p.ref∨required=true then (.ended,dropPass s p.id)
    else match decideSezzleRecovery order p.attempt payable (p.now-p.attempt.createdAt)
        opts.sessionExpiryMs clock with
      | .wait _ => (.ended,dropPass s p.id)
      | decision =>
        if opts.apply=false then (.ended,dropPass s p.id)
        else (.ran,setPhase s p.id (.decided decision))

/-- Take the pay lock; quarantined orders end the pass. -/
def takeLock (p : Pass) (decision : SezzleDecision) : Answer×Shop :=
  if s.payLock≠none then (.waits,s)
  else if s.order.any Order.financialReconciliationRequired=true then (.ended,dropPass s p.id)
  else (.ran,{setPhase s p.id (.locked decision) with payLock := some p.id})

/-- Answer of the payment policy. -/
inductive PolicyAnswer where
  | capture
  | cancel (reason : String)
  | unavailable

/-- Verdict of the decision transaction. -/
inductive CaptureVerdict where
  | capture
  | cancel (reason : String)
  | unavailable

def persistDecision (id : String) (decision : CaptureDecision) : Shop :=
  updateAttempt s id fun a => {a with captureDecision := some decision}

/-- Persist the answer of the payment policy. -/
def policyVerdict (id : String) : PolicyAnswer → CaptureVerdict×Shop
  | .capture => (.capture,persistDecision s id .capture)
  | .cancel reason => (.cancel ("policy:" ++ reason),persistDecision s id (.cancel ("policy:" ++ reason)))
  | .unavailable => (.unavailable,s)

/-- Decision transaction of a capture. A persisted decision is final; otherwise
the order has to be payable and the policy is asked. -/
def decideSezzleCapture (a : Attempt) (policy : PolicyAnswer) : CaptureVerdict×Shop :=
  match findAttempt s a.id with
  | none => (.unavailable,s)
  | some row =>
    if s.order.any Order.financialReconciliationRequired=true then (.unavailable,s)
    else match row.captureDecision with
      | some .capture => (.capture,s)
      | some (.cancel reason) => (.cancel reason,s)
      | none =>
        match s.order with
        | none => (.unavailable,s)
        | some o =>
          if o.payable a.amount=false then (.cancel "order_not_payable",s)
          else policyVerdict s a.id policy

/-- Continue a pass after its verdict. -/
def followVerdict (id : ℕ) : CaptureVerdict×Shop → Answer×Shop
  | (.capture,s) => (.ran,setPhase s id .capturing)
  | (.cancel reason,s) => (.ran,setPhase s id (.releasing reason))
  | (.unavailable,s) => (.ended,dropPass s id)

/-- Decide under the pay lock. -/
def decideLocked (p : Pass) (policy : PolicyAnswer) : SezzleDecision → Answer×Shop
  | .capture => followVerdict p.id (decideSezzleCapture s p.attempt policy)
  | .release reason => (.ran,setPhase s p.id (.releasing reason))
  | .expire => (.ran,setPhase s p.id (.closing "session_expired" false))
  | .wait _ => (.ended,dropPass s p.id)

/-- Call the provider; a failed call ends the pass, whatever the provider did. -/
def callProvider (p : Pass) (answered : Bool) : Answer×Shop :=
  match p.phase with
  | .capturing => (.called .captureOrder p.attempt.id,
      if answered=true then setPhase s p.id .captured else dropPass s p.id)
  | .releasing reason => (.called .releaseOrder p.attempt.id,
      if answered=true then setPhase s p.id (.closing reason true) else dropPass s p.id)
  | _ => (.idle,s)

/-- Result of a pass that declines its attempt. -/
def declinedResult (ref : String) (released : Bool) : PaymentResult := ⟨.declined,some ref,false,
    some (if released=true then "Sezzle authorization released" else "Sezzle checkout expired")⟩

/-- Record the outcome of a pass and end it. -/
def finishPass (s : Shop) (p : Pass) : Answer×Shop :=
  match p.phase with
  | .captured => endPass p.id
      ((finishAttempt w s p.attempt.id ⟨.settled,some p.ref,false,none⟩).getD (.ended,s))
  | .closing _ released => endPass p.id
      ((finishAttempt w s p.attempt.id (declinedResult p.ref released)).getD (.ended,s))
  | _ => (.idle,s)
where
  endPass (id : ℕ) : Answer×Shop → Answer×Shop
    | (answer,s) => (answer,dropPass s id)

/-- How the creation of a session ended. -/
inductive SessionEnd where
  | created (ref : String)
  | unknown
  | stopped

/-- Row of a new attempt after its session was created. -/
def sessionRow (a : Attempt) : SessionEnd → Attempt
  | .created ref => {a with status := .pending,providerRef := some ref}
  | .unknown => {a with status := .unknown}
  | .stopped => a

/-- Insert an attempt and create its session under the pay lock. -/
def startSession (id accountId mode : String) (amount : ℤ) (currency : String)
    (createdAt : ℤ) (ending : SessionEnd) : Answer×Shop :=
  if s.payLock≠none then (.waits,s)
  else (.ran,{ s with attempts := s.attempts++[sessionRow
    ⟨id,none,none,accountId,mode,amount,currency,.processing,none,none,none,createdAt⟩ ending]})

/-- Bind a lost reference to an attempt under the pay lock. -/
def bindReference (id ref : String) : Answer×Shop :=
  match findAttempt s id with
  | none => (.idle,s)
  | some a =>
    if s.payLock≠none then (.waits,s)
    else if a.providerRef≠none∧a.providerRef≠some ref then (.ended,s)
    else (.ran,updateAttempt s id fun a => {a with providerRef := some ref})

/-- Other payments, refunds, edits and cancellations change the order under the
pay lock. -/
def changeOrder (order : Option Order) : Answer×Shop :=
  if s.payLock≠none then (.waits,s) else (.ran,{s with order := order})

/-- One step. -/
inductive Action where
  | startPass (id : ℕ) (attemptId : String) (now : ℤ)
  | verifyFirst (id : ℕ) (reading : Reading)
  | readContext (id : ℕ)
  | getOrder (id : ℕ) (answer : Option SezzleOrder) (clock : ℤ) (opts : RecoveryOptions)
  | lock (id : ℕ)
  | decide (id : ℕ) (policy : PolicyAnswer)
  | callProvider (id : ℕ) (answered : Bool)
  | finish (id : ℕ)
  | crash (id : ℕ)
  | verify (attemptId : String) (reading : Reading)
  | startSession (id accountId mode : String) (amount : ℤ) (currency : String) (createdAt : ℤ)
      (ending : SessionEnd)
  | bindReference (attemptId ref : String)
  | changeOrder (order : Option Order)

/-- Run a step of an open pass. -/
def onPass (id : ℕ) (f : Pass → Answer×Shop) : Answer×Shop :=
  match findPass s id with
  | none => (.idle,s)
  | some p => f p

/-- Step of a pass that is at its first verification. -/
def atStart (s : Shop) (r : Reading) (p : Pass) : Answer×Shop :=
  if p.phase=.started then verifyFirst w s p r else (.idle,s)

/-- Step of a pass that is about to read the order. -/
def atVerified (p : Pass) : Answer×Shop :=
  if p.phase=.verified then readContext s p else (.idle,s)

/-- Step of a pass that is about to ask the provider. -/
def atInformed (answer : Option SezzleOrder) (clock : ℤ) (opts : RecoveryOptions)
    (p : Pass) : Answer×Shop :=
  match p.phase with
  | .informed payable required => decideUnlocked s p payable required answer clock opts
  | _ => (.idle,s)

/-- Step of a pass that is about to take the lock. -/
def atDecided (p : Pass) : Answer×Shop :=
  match p.phase with
  | .decided decision => takeLock s p decision
  | _ => (.idle,s)

/-- Step of a pass that has taken the lock. -/
def atLocked (policy : PolicyAnswer) (p : Pass) : Answer×Shop :=
  match p.phase with
  | .locked decision => decideLocked s p policy decision
  | _ => (.idle,s)

/-- Execute one step. -/
def step (s : Shop) : Action → Answer×Shop
  | .startPass id attemptId now => startPass s id attemptId now
  | .verifyFirst id reading => onPass s id (atStart w s reading)
  | .readContext id => onPass s id (atVerified s)
  | .getOrder id answer clock opts => onPass s id (atInformed s answer clock opts)
  | .lock id => onPass s id (atDecided s)
  | .decide id policy => onPass s id (atLocked s policy)
  | .callProvider id answered => onPass s id fun p => callProvider s p answered
  | .finish id => onPass s id (finishPass w s)
  | .crash id => (.ended,dropPass s id)
  | .verify attemptId reading => verifySezzleAttempt w s attemptId reading
  | .startSession id accountId mode amount currency createdAt ending =>
    startSession s id accountId mode amount currency createdAt ending
  | .bindReference attemptId ref => bindReference s attemptId ref
  | .changeOrder order => changeOrder s order

end SellRight.SezzleRecovery
