import SellRight.SezzleRecovery
import SellRight.RunHistory

/-!
# Gateway payments of an order

The payment attempts of one order, the call that starts a charge or a session under
the order's pay lock, and the verifications that ask the provider for the outcome of
an attempt. A verification reads the attempt before it takes the pay lock. Other
payments change the order without that lock.
-/

namespace SellRight.GatewayPayments

open OrderLifecycle PaymentLedger RowTable SezzleRecovery

/-- What an attempt asks of its provider. -/
inductive Operation
  | charge
  | session
  | refund
  | intent
  deriving DecidableEq

/-- Gateway of a payment. -/
inductive GatewayMethod
  | nmi
  | sezzle
  deriving DecidableEq

/-- Name in the method column. -/
def GatewayMethod.text : GatewayMethod → String
  | .nmi => "nmi"
  | .sezzle => "sezzle"

/-- Operation of a new attempt. -/
def GatewayMethod.operation : GatewayMethod → Operation
  | .nmi => .charge
  | .sezzle => .session

inductive ResultColumn
  | checkout (checkoutUrl : String)
  | error (reason : String)
  | outcome (result : AttemptResult)
  deriving DecidableEq

/-- Row of `payment_attempt`. -/
structure Attempt where
  (id orderId : String)
  operation : Operation
  (method accountId mode : String)
  amount : ℤ
  (currency idempotencyKey : String)
  /-- Reference sent to the provider instead of the identifier. -/
  orderReference : Option String
  status : AttemptStatus
  (providerRef paymentId : Option String)
  result : Option ResultColumn
  deriving DecidableEq

/-- Merchant account of the store. -/
structure Account where
  (accountId mode : String)

/-- The call that holds the pay lock. -/
structure Call where
  attemptId : String
  amount : ℤ
  method : GatewayMethod
  called : Bool

/-- A verification that has read its attempt. -/
structure Verification where
  id : ℕ
  snapshot : Attempt

/-- The order, the attempts of the store, and what is under way for the order. -/
structure Shop where
  order : Order
  (code currency : String)
  attempts : List Attempt
  call : Option Call
  verifications : List Verification

/-- How a result changes the order, and the reference sent with a charge; the first is
none when the transaction fails. -/
structure World where
  /-- Apply a result to the order, in the mode it was found to run in. -/
  applyPaymentResult : Order → Attempt → String → PaymentResult → Option Order
  nmiOrderReference : String → String → String

/-- The order is settled and may owe a balance. -/
def isBalanceState (state : OrderState) : Bool :=
  decide (state=.paid)||decide (state=.partiallyRefunded)

/-- The status holds the order. -/
def isActive (status : AttemptStatus) : Bool :=
  decide (status=.processing)||decide (status=.unknown)||decide (status=.pending)

def isCharge (orderId : String) (a : Attempt) : Bool :=
  decide (a.orderId=orderId) && (decide (a.operation=.charge)||decide (a.operation=.session))

def settledCount (o : Order) : ℕ :=
  o.payments.countP fun p => decide (p.orderId=o.id)&&decide (p.state=.settled)

/-- Key of a new attempt. A balance has a key of its own for each number of settled
payments. -/
def attemptKey (o : Order) (key : String) : String :=
  if isBalanceState o.state then key ++ ":balance:" ++ toString (settledCount o) else key

variable (s : Shop)

/-- Row of an attempt. -/
def findAttempt (id : String) : Option Attempt :=
  s.attempts.find? fun a => decide (a.id=id)

/-- Rewrite the row of an attempt. -/
def updateAttempt (id : String) (f : Attempt → Attempt) : Shop :=
  {s with attempts := updateWhere (fun a => decide (a.id=id)) f s.attempts}

/-- What a shopper's request brings, and what the checks outside the model say of it. -/
structure StartInput where
  method : GatewayMethod
  (idempotencyKey token : String)
  /-- The receipt or the customer owns the order. -/
  granted : Bool
  /-- Message of the payment policy that forbids the payment. -/
  veto : Option String
  /-- The store takes payments of this gateway. -/
  enabled : Bool
  account : Option Account
  /-- The account still fits the environment an earlier attempt was recorded in. -/
  environmentHolds : Bool
  /-- Message of a checkout session that cannot be built. -/
  sessionError : Option String
  attemptId : String

/-- What a step answered. -/
inductive Answer
  | idle
  | waits
  | failed
  | refused (status : ℕ) (message : String)
  | replayed (attemptId : String)
  | stored (attemptId : String) (amount : ℤ)
  | called (attemptId : String) (amount : ℤ)
  | reading
  /-- An outcome was recorded, or the attempt was settled before. -/
  | recorded (attemptId : String)
  deriving DecidableEq

/-- Attempts under the keys that a request may have used. -/
def replays (key : String) : Option Attempt :=
  let found := s.attempts.filter fun a =>
    decide (a.idempotencyKey=key)||decide (a.idempotencyKey=attemptKey s.order key)
  (found.find? fun a => decide (a.idempotencyKey=key)).orElse fun _ => found.head?

def environmentChanged : Answer :=
  .refused 409 "Payment gateway environment changed; restore the original account configuration"

/-- Answer with an earlier attempt under the same key. -/
def replay (i : StartInput) (account : Account) (existing : Attempt) : Answer :=
  if existing.orderId≠s.order.id∨existing.method≠i.method.text ∨
      existing.operation≠i.method.operation then
    .refused 409 "Idempotency key belongs to a different payment"
  else if existing.status=.settled then .replayed existing.id
  else if existing.accountId≠account.accountId∨existing.mode≠account.mode then
    .refused 409 "Idempotency key belongs to a different payment"
  else if i.environmentHolds=false then environmentChanged
  else .replayed existing.id

variable (w : World)

/-- Row of a new attempt. -/
def newAttempt (s : Shop) (i : StartInput) (account : Account) : Attempt where
  id := i.attemptId
  orderId := s.order.id
  operation := i.method.operation
  method := i.method.text
  accountId := account.accountId
  mode := account.mode
  amount := s.order.due
  currency := s.currency
  idempotencyKey := attemptKey s.order i.idempotencyKey
  orderReference := match i.method with
    | .nmi => some (w.nmiOrderReference s.code i.attemptId)
    | .sezzle => none
  status := .processing
  providerRef := none
  paymentId := none
  result := none

/-- Another attempt of the order is unresolved. -/
def hasActive : Bool :=
  s.attempts.any fun a => decide (a.orderId=s.order.id)&&isActive a.status

/-- A row with the identifier or the key of a new one is stored. -/
def isTaken (id key : String) : Bool :=
  s.attempts.any fun a => decide (a.id=id)||decide (a.idempotencyKey=key)

/-- Insert a new attempt and keep the pay lock. -/
def storeAttempt (s : Shop) (i : StartInput) (account : Account) : Answer×Shop :=
  if s.order.state≠.pendingPayment∧isBalanceState s.order.state=false then
    (.refused 409 "Order is not payable",s)
  else if hasActive s=true then
    (.refused 409 "Resolve the existing payment before starting another",s)
  else if s.order.due≤0 then (.refused 409 "Order is already paid",s)
  else if i.method=.nmi∧i.token = "" then (.refused 400 "Payment token required",s)
  else if i.method=.sezzle∧i.sessionError.isSome=true then
    (.refused 400 (i.sessionError.getD ""),s)
  else if isTaken s i.attemptId (attemptKey s.order i.idempotencyKey)=true then
    (.failed,s)
  else (.stored i.attemptId s.order.due,{s with
    attempts := s.attempts++[newAttempt w s i account]
    call := some ⟨i.attemptId,s.order.due,i.method,false⟩})

/-- First transaction of `startGatewayPayment`, under the pay lock. -/
def startGatewayPayment (s : Shop) (i : StartInput) : Answer×Shop :=
  if s.call.isSome=true then (.waits,s)
  else if i.granted=false then (.refused 404 "Order not found",s)
  else if s.order.financialReconciliationRequired=true then
    (.refused 409 "Imported financial history requires reconciliation before changing money.",s)
  else match i.veto with
    | some message => (.refused 409 message,s)
    | none =>
      if i.enabled=false then (.refused 409 "Payment method disabled",s)
      else match i.account with
        | none => (.refused 503 "Payment account is not configured",s)
        | some account =>
          match replays s i.idempotencyKey with
          | some existing => (replay s i account existing,s)
          | none => storeAttempt w s i account

/-- Call the provider for the attempt that was stored. -/
def callProvider : Answer×Shop :=
  match s.call with
  | none => (.idle,s)
  | some c =>
    if c.called=true then (.idle,s)
    else (.called c.attemptId c.amount,{s with call := some {c with called := true}})

/-- Payment of the order that carries a result. -/
def paymentOf (o : Order) (a : Attempt) (mode : String) (result : PaymentResult) : Option String :=
  result.providerRef.bind fun ref => (o.payments.find? fun p =>
    decide (p.orderId=o.id)&&decide (p.method=a.method) &&
      decide (p.providerRef=some ref)&&decide (p.gatewayAccount.getD "" = a.accountId) &&
      decide (p.gatewayMode.getD "" = mode)).map Payment.id

variable (a : Attempt)

/-- Mode that a result ran in. The gateway may have been in test mode. -/
def resultMode (result : PaymentResult) (testMode : Bool) : String :=
  if a.method = "nmi" ∧ a.mode = "live" ∧ result.state=.settled∧testMode=true then "test"
  else a.mode

/-- Row of an attempt after a result. -/
def finishedRow (o : Order) (mode : String) (result : PaymentResult) (a : Attempt) : Attempt :=
  {a with
    status := statusOf result
    providerRef := result.providerRef
    mode := mode
    paymentId := (paymentOf o a mode result).orElse fun _ => a.paymentId
    result := some (.outcome ⟨o.state,result.state,
      if statusOf result=.failed∨statusOf result=.unknown then result.errorMessage
      else none⟩)}

/-- The order after a result. A result without a reference leaves it. -/
def appliedOrder (o : Order) (a : Attempt) (mode : String) (result : PaymentResult) :
    Option Order :=
  match result.providerRef with
  | none => some o
  | some _ => (w.applyPaymentResult o a mode result).map fun o' => {o' with id := o.id}

/-- Record a result on an attempt. A settled attempt keeps its row. -/
def finishAttempt (s : Shop) (id : String) (result : PaymentResult) (testMode : Bool) :
    Answer×Shop :=
  match findAttempt s id with
  | none => (.refused 404 "Payment not found",s)
  | some a =>
    if a.status=.settled then (.recorded id,s)
    else
      let mode := resultMode a result testMode
      match appliedOrder w s.order a mode result with
      | none => (.failed,s)
      | some o => (.recorded id,updateAttempt {s with order := o} id (finishedRow o mode result))

/-- What the provider answered to a call. -/
inductive ProviderAnswer
  | session (providerRef checkoutUrl : String)
  | lost
  | payment (result : PaymentResult) (testMode : Bool)

/-- Row of an attempt whose session was created. -/
def openedRow (providerRef checkoutUrl : String) (a : Attempt) : Attempt := {a with
    status := .pending
    providerRef := some providerRef
    result := some (.checkout checkoutUrl)}

/-- Row of an attempt whose answer was lost. -/
def lostRow : Attempt :=
  {a with status := .unknown,result := some (.error "Sezzle session requires reconciliation")}

/-- Record the answer to a call and let go of the pay lock. -/
def recordAnswer (s : Shop) (answer : ProviderAnswer) : Answer×Shop :=
  match s.call with
  | none => (.idle,s)
  | some c =>
    match c.method, answer with
    | .sezzle, .session ref url => (.recorded c.attemptId,
        {updateAttempt s c.attemptId (openedRow ref url) with call := none})
    | .sezzle, .lost => (.refused 409 "Sezzle session could not be confirmed; contact the store",
        {updateAttempt s c.attemptId lostRow with call := none})
    | .nmi, .payment result testMode =>
      let done := finishAttempt w s c.attemptId result testMode
      (done.1,{done.2 with call := none})
    | _, _ => (.idle,s)

/-- The process that holds the pay lock stops. -/
def crash : Answer×Shop := (.idle,{s with call := none})

/-- Texts of one element of a query response, trimmed. -/
abbrev Nodes := List String

/-- Action of a queried transaction. -/
structure NmiAction where
  (actionType success amount : Nodes)

/-- Transaction of a query response. -/
structure NmiTransaction where
  (transactionId orderId currency condition avsResponse cscResponse ccBin ccNumber : Nodes)
  actions : List NmiAction

/-- Text of an element; none when it stands twice. -/
def nodeValue : Nodes → Option String
  | [] => some ""
  | [text] => some text
  | _ => none

/-- Number that digits write. -/
def digitsValue (digits : List Char) : ℕ := digits.foldl (fun n c => 10*n+(c.toNat - '0'.toNat)) 0

/-- Cents of an amount with two decimals. -/
def cents (raw : String) : Option ℤ :=
  match raw.toList.reverse with
  | c::d :: '.' :: rest =>
    if rest≠[]∧(c::d::rest).all Char.isDigit=true ∧
        digitsValue (rest.reverse++[d,c])≤9007199254740991 then
      some (digitsValue (rest.reverse++[d,c]))
    else none
  | _ => none

structure ReadAction where
  actionType : String
  success : Bool
  amount : ℤ

/-- Read an action; none when a field is malformed. -/
def readAction (action : NmiAction) : Option ReadAction :=
  (nodeValue action.actionType).bind fun actionType =>
    (nodeValue action.success).bind fun success =>
      ((nodeValue action.amount).bind cents).map fun amount =>
        ⟨actionType,decide (success = "1"),amount⟩

/-- An outcome that stays open. -/
def unresolved (ref : Option String) : PaymentResult :=
  ⟨.pending,ref,true,some "NMI transaction requires reconciliation"⟩

/-- What identifies the transaction of an attempt. -/
def identifies (ref orderId currency : String) : Bool :=
  decide (ref ≠ "")&&decide (orderId=a.orderReference.getD a.id) &&
    a.providerRef.all (fun known => decide (known = "")||decide (ref=known)) &&
    decide (currency=a.currency)

/-- Documented cards of the gateway's test mode. -/
def nmiTestCards : List String :=
  ["4111111111111111", "5431111111111111", "6011000991300009", "341111111111111",
    "30205252489926", "3541963594572595", "6799990100000000019"]

/-- The leading and the last four digits are those of a documented test card. -/
def isNmiTestCard (bin last4 : List Char) : Bool :=
  nmiTestCards.any fun pan => decide (bin.length+4≤pan.toList.length) &&
    bin.isPrefixOf pan.toList&&last4.isSuffixOf pan.toList

/-- Leading digits of a card, from the field or from the masked number. -/
def leadingDigits (ccBin number : List Char) : Option (List Char) :=
  if ccBin.all Char.isDigit=true∧6≤ccBin.length∧ccBin.length≤8 then some ccBin
  else
    let digits := (number.takeWhile Char.isDigit).take 8
    if 6≤digits.length then some digits else none

/-- The card fields of a query show a test card. -/
def nmiQueryShowsTestCard (ccBin ccNumber : String) : Bool :=
  let number := ccNumber.toList.filter fun c => !c.isWhitespace
  let last4 := number.drop (number.length-4)
  decide (last4.length=4)&&last4.all Char.isDigit &&
    (leadingDigits ccBin.toList number).any fun bin => isNmiTestCard bin last4

/-- A successful action of one of these kinds. -/
def ReadAction.succeeded (kinds : List String) (x : ReadAction) : Bool :=
  x.success&&decide (x.actionType∈kinds)

/-- A live charge failed its address or code check. -/
def cardRejected (transaction : NmiTransaction) : Option Bool :=
  if a.mode = "live" then
    (nodeValue transaction.avsResponse).bind fun avs =>
      if avs = "N" ∨ avs = "C" then some true
      else (nodeValue transaction.cscResponse).map fun csc => decide (csc = "N")
  else some false

/-- Verdict on the actions of an identified transaction, and whether it shows a test
card. -/
def verdict (ref : String) (transaction : NmiTransaction)
    (actions : List ReadAction) : Option (PaymentResult×Bool) :=
  let charged := actions.filter (ReadAction.succeeded ["sale", "capture"])
  if actions.any (ReadAction.succeeded ["refund", "void", "return", "credit"])=true then
    some (unresolved (some ref),false)
  else (nodeValue transaction.condition).bind fun condition =>
    if charged=[]∧condition∈["failed", "abandoned", "canceled"] then
      some (⟨.failed,some ref,false,none⟩,false)
    else if charged.map ReadAction.amount≠[a.amount] then some (unresolved (some ref),false)
    else (cardRejected a transaction).bind fun rejected =>
      if rejected=true then some (unresolved (some ref),false)
      else if condition∉["complete", "pendingsettlement"] then
        some (unresolved (some ref),false)
      else (nodeValue transaction.ccBin).bind fun ccBin =>
        (nodeValue transaction.ccNumber).map fun ccNumber =>
          (⟨.settled,some ref,false,none⟩,nmiQueryShowsTestCard ccBin ccNumber)

/-- Read one transaction; none when a field is malformed. -/
def readTransaction (transaction : NmiTransaction) : Option (PaymentResult×Bool) :=
  (nodeValue transaction.transactionId).bind fun ref =>
    (nodeValue transaction.orderId).bind fun orderId =>
      (nodeValue transaction.currency).bind fun currency =>
        if identifies a ref orderId currency=false then some (unresolved a.providerRef,false)
        else (transaction.actions.mapM readAction).bind (verdict a ref transaction)

/-- Result of a parsed query response for the charge of an attempt. -/
def verifyNmiQuery (transactions : List NmiTransaction) : PaymentResult×Bool :=
  match transactions with
  | [transaction] => (readTransaction a transaction).getD (unresolved a.providerRef,false)
  | _ => (unresolved a.providerRef,false)

/-- What a verification learns from the provider. -/
inductive Reading
  /-- The account of the attempt is not configured. -/
  | unconfigured
  /-- The environment of the account of a charge no longer fits. -/
  | environmentChanged
  /-- Query of a charge, none when it failed or could not be parsed. -/
  | nmi (answer : Option (List NmiTransaction))
  | sezzle (reading : SezzleRecovery.Reading)

/-- Attempt as the session's provider code reads it. -/
def Attempt.asSezzle : SezzleRecovery.Attempt :=
  ⟨a.id,a.orderReference,a.providerRef,a.accountId,a.mode,a.amount,a.currency,a.status,
    none,a.paymentId,none,0⟩

/-- Result that a verification records, and whether it ran in test mode. -/
def readResult : Reading → Option (PaymentResult×Bool)
  | .unconfigured | .environmentChanged => none
  | .nmi answer =>
    if a.method = "nmi" then
      some ((answer.map (verifyNmiQuery a)).getD (unresolved a.providerRef,false))
    else none
  | .sezzle reading =>
    if a.method = "sezzle" then
      some (createPayment a.asSezzle {reading with token := a.providerRef.getD ""},false)
    else none

/-- Answer of a verification without a result. -/
def unread : Reading → Answer
  | .environmentChanged => environmentChanged
  | _ => .failed

/-- Which function verifies. -/
inductive Entry
  | gateway
  | sezzle

/-- Checks of `verifySezzleAttempt` before the pay lock. -/
def admitSezzle : Option Answer :=
  if a.method ≠ "sezzle" then some (.refused 404 "Sezzle payment not found")
  else if a.status=.settled then none
  else if a.providerRef=none then some (.refused 404 "Sezzle payment not found")
  else none

/-- Checks of `verifyGatewayAttempt` before the pay lock. Refunds are reconciled
elsewhere. -/
def admitGateway : Option Answer :=
  if a.operation=.refund then some .idle
  else if a.status=.settled∧((a.method = "nmi" ∧ a.operation=.charge) ∨
      (a.method = "sezzle" ∧ a.operation=.session)) then none
  else if a.method = "sezzle" then admitSezzle a
  else if a.method ≠ "nmi" ∨ a.operation≠.charge then
    some (.refused 409 "This operation requires separate reconciliation")
  else none

/-- Checks before the pay lock. -/
def admitEntry : Entry → Attempt → Option Answer
  | .gateway, a => admitGateway a
  | .sezzle, a => admitSezzle a

def beginVerification (entry : Entry) (id : ℕ) (attemptId : String) : Answer×Shop :=
  match findAttempt s attemptId with
  | none => (.refused 404 "Payment not found",s)
  | some a =>
    match admitEntry entry a with
    | some answer => (answer,s)
    | none => (.reading,{s with verifications := s.verifications++[⟨id,a⟩]})

/-- End a verification. -/
def dropVerification (id : ℕ) : Shop :=
  {s with verifications := deleteWhere (fun v => decide (v.id=id)) s.verifications}

/-- Ask the provider under the pay lock and record what it says. An attempt that was
read as settled needs neither. -/
def verify (s : Shop) (a : Attempt) (reading : Reading) : Answer×Shop :=
  if a.status=.settled then finishAttempt w s a.id ⟨.settled,a.providerRef,false,none⟩ false
  else if s.call.isSome=true then (.waits,s)
  else match readResult a reading with
    | none => (unread reading,s)
    | some (result,testMode) => finishAttempt w s a.id result testMode

/-- End of an open verification. -/
def endVerification (s : Shop) (id : ℕ) (reading : Reading) : Answer×Shop :=
  match s.verifications.find? fun v => decide (v.id=id) with
  | none => (.idle,s)
  | some v =>
    match verify w s v.snapshot reading with
    | (.waits,_) => (.waits,s)
    | (answer,s') => (answer,dropVerification s' id)

/-- Other code writes a row that is no charge or session of the order. -/
def putOther (row : Attempt) : Answer×Shop :=
  if isCharge s.order.id row=true then (.idle,s)
  else if s.attempts.any (fun a => decide (a.id≠row.id) &&
      decide (a.idempotencyKey=row.idempotencyKey))=true then (.failed,s)
  else match findAttempt s row.id with
    | none => (.idle,{s with attempts := s.attempts++[row]})
    | some a =>
      if isCharge s.order.id a=true then (.idle,s)
      else (.idle,updateAttempt s row.id fun _ => row)

/-- One step. -/
inductive Action
  | start (input : StartInput)
  | call
  | record (answer : ProviderAnswer)
  | crash
  | beginVerification (entry : Entry) (id : ℕ) (attemptId : String)
  | endVerification (id : ℕ) (reading : Reading)
  | dropVerification (id : ℕ)
  | changeOrder (order : Order)
  | putOther (row : Attempt)

/-- Perform one step. -/
def step (s : Shop) : Action → Answer×Shop
  | .start input => startGatewayPayment w s input
  | .call => callProvider s
  | .record answer => recordAnswer w s answer
  | .crash => GatewayPayments.crash s
  | .beginVerification entry id attemptId => GatewayPayments.beginVerification s entry id attemptId
  | .endVerification id reading => GatewayPayments.endVerification w s id reading
  | .dropVerification id => (.idle,GatewayPayments.dropVerification s id)
  | .changeOrder order => (.idle,{s with order := {order with id := s.order.id}})
  | .putOther row => GatewayPayments.putOther s row

end SellRight.GatewayPayments
