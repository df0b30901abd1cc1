import Mathlib.Data.List.Sort
import SellRight.RowTable

/-!
# Restock notices

Requests to be notified, waitlist subscribers of a variant's topic and the queue
of restock events. A sweep claims events and drains their variants, a direct
call drains one variant. Both are transactions that stay open: what they claim
is locked, sweeps skip what others hold, and everything is written at the
commit. Sign-ups, confirmations, cancellations and stock writes are atomic.
-/

namespace SellRight.RestockNotices

open RowTable

/-- Status of a restock request. -/
inductive RequestStatus where
  | pending
  | notified
  | canceled
  deriving DecidableEq

/-- Status of a waitlist subscriber. -/
inductive SubscriberStatus where
  | pending
  | confirmed
  | unsubscribed
  deriving DecidableEq

/-- A row of `restock_request`. -/
structure Request where
  id : ℕ
  (variantId email : String)
  status : RequestStatus
  createdAt : ℤ
  deriving DecidableEq

/-- A row of `subscriber` of kind waitlist. -/
structure Subscriber where
  id : ℕ
  (variantId email : String)
  status : SubscriberStatus
  /-- Signup that expanded to this row and its siblings. -/
  signupGroup : Option String
  createdAt : ℤ

/-- A row of `restock_event`. -/
structure RestockEvent where
  id : ℕ
  variantId : String
  processed : Bool
  createdAt : ℤ

/-- A row of `stock`. -/
structure Stock where
  (onHand allocated : ℤ)

/-- A row that waits for a notice. -/
inductive RowId where
  | request (id : ℕ)
  | subscriber (id : ℕ)
  deriving DecidableEq

/-- What is mailed at most once: a request, a subscriber of its own, or all
rows of one signup. -/
inductive Consumption where
  | request (id : ℕ)
  | row (id : ℕ)
  | group (name : String)
  deriving DecidableEq

/-- Key that deduplicates the mails to subscribers. -/
def Subscriber.dedupeKey (row : Subscriber) : Consumption :=
  match row.signupGroup with
  | none => .row row.id
  | some name => .group name

/-- A notice in the outbox. -/
structure Mail where
  row : RowId
  unit : Consumption

/-- Variant whose rows a transaction has claimed but not finished. -/
structure Current where
  variantId : String
  rows : List Subscriber
  requeue : Bool

/-- An open transaction of a sweep or of a direct call. -/
structure Transaction where
  id : ℕ
  /-- Rows per lane and variant; a direct call has no cap. -/
  cap : Option ℕ
  events : List ℕ
  todo : List String
  current : Option Current
  /-- Rows it holds and will mark as notified or unsubscribed. -/
  held : List RowId
  added : List String
  mails : List Mail

/-- Committed rows, open transactions and the outbox. -/
structure Shop where
  /-- Stock of each variant; a missing row counts as none. -/
  stock : String → Stock
  requests : List Request
  subscribers : List Subscriber
  events : List RestockEvent
  pendingTx : List Transaction
  mails : List Mail
  /-- Held rows that a sweep passed over without queueing the variant again. -/
  passed : List RowId

variable (s : Shop)

/-- Units of a variant that can be sold. -/
def available (v : String) : ℤ := (s.stock v).onHand-(s.stock v).allocated

/-- An open transaction holds a row. -/
def isHeld (row : RowId) : Bool := s.pendingTx.any fun t => decide (row∈t.held)

/-- An open transaction holds an event. -/
def isClaimed (id : ℕ) : Bool := s.pendingTx.any fun t => decide (id∈t.events)

/-- Requests that wait for a variant. -/
def dueRequests (v : String) : List Request :=
  s.requests.filter fun row => decide (row.variantId=v)&&decide (row.status=.pending)

/-- Confirmed subscribers of a variant's topic. -/
def dueSubscribers (v : String) : List Subscriber :=
  s.subscribers.filter fun row => decide (row.variantId=v)&&decide (row.status=.confirmed)

/-- Rows are claimed in the order of their creation. -/
def earlier (a b : ℤ×ℕ) : Prop := a.1<b.1∨(a.1=b.1∧a.2≤b.2)

instance : DecidableRel earlier := fun a b => by
  unfold earlier
  infer_instance

/-- The first rows up to the cap, or all of them. -/
def upToCap {α : Type} (cap : Option ℕ) (rows : List α) : List α :=
  match cap with
  | none => rows
  | some limit => rows.take limit

/-- Requests of a variant that are claimed now. -/
def claimRequests (cap : Option ℕ) (v : String) : List Request :=
  upToCap cap (((dueRequests s v).filter fun row => !isHeld s (.request row.id)).insertionSort
    fun a b => earlier (a.createdAt,a.id) (b.createdAt,b.id))

/-- Subscribers of a variant's topic that are claimed now. -/
def claimSubscribers (cap : Option ℕ) (v : String) : List Subscriber :=
  upToCap cap (((dueSubscribers s v).filter fun row => !isHeld s (.subscriber row.id)).insertionSort
    fun a b => earlier (a.createdAt,a.id) (b.createdAt,b.id))

/-- Another transaction holds a row. -/
def isHeldElsewhere (t : Transaction) (row : RowId) : Bool :=
  s.pendingTx.any fun other => decide (other.id≠t.id)&&decide (row∈other.held)

/-- Waiting rows of a variant that other transactions hold. -/
def heldRows (t : Transaction) (v : String) : List RowId :=
  (((dueRequests s v).map fun row => RowId.request row.id) ++
    (dueSubscribers s v).map fun row => RowId.subscriber row.id).filter (isHeldElsewhere s t)

/-- A lane filled its cap, so that more rows may wait. -/
def fillsCap (cap : Option ℕ) (requests : List Request) (rows : List Subscriber) : Bool :=
  match cap with
  | none => false
  | some limit => decide (limit≤requests.length)||decide (limit≤rows.length)

/-- Write an open transaction back. -/
def setTx (t : Transaction) : Shop :=
  {s with pendingTx := updateWhere (fun other => decide (other.id=t.id)) (fun _ => t) s.pendingTx}

/-- Whether a step ran. -/
inductive Answer where
  | ran
  | waits
  | idle

/-- Open a sweep transaction: claim the oldest free events. -/
def beginSweep (id take cap : ℕ) : Shop :=
  let claimed := ((s.events.filter fun event => !event.processed && !isClaimed s event.id).insertionSort
    fun a b => earlier (a.createdAt,a.id) (b.createdAt,b.id)).take take
  {s with
    pendingTx := s.pendingTx++[⟨id,some cap,claimed.map RestockEvent.id,
      (claimed.map RestockEvent.variantId).dedup,none,[],[],[]⟩]}

/-- Open the transaction of a direct call. -/
def beginNotify (id : ℕ) (v : String) : Shop :=
  {s with pendingTx := s.pendingTx++[⟨id,none,[],[v],none,[],[],[]⟩]}

/-- Transaction after claiming the rows of its next variant. -/
def claimedTx (t : Transaction) (v : String) (rest : List String) (requests : List Request)
    (rows : List Subscriber) : Transaction :=
  {t with
    todo := rest
    current := some ⟨v,rows,fillsCap t.cap requests rows⟩
    held := t.held++requests.map (fun row => RowId.request row.id) ++
      rows.map fun row => RowId.subscriber row.id
    mails := t.mails++requests.map fun row => ⟨.request row.id,.request row.id⟩}

/-- Claim the pending requests and confirmed subscribers of the next variant.
An unavailable variant is passed without a claim; a direct call waits for rows
that others hold. -/
def processRestock (t : Transaction) : Answer×Shop :=
  match t.current, t.todo with
  | none, v::rest =>
    if available s v≤0 then (.ran,setTx s {t with todo := rest})
    else if t.cap=none∧heldRows s t v≠[] then (.waits,s)
    else
      let requests := claimRequests s t.cap v
      let rows := claimSubscribers s t.cap v
      let after := setTx s (claimedTx t v rest requests rows)
      (.ran,if t.cap=none∨fillsCap t.cap requests rows=true then after
        else {after with passed := after.passed++heldRows s t v})
  | _, _ => (.idle,s)

def siblings (t : Transaction) (current : Current) : List Subscriber :=
  s.subscribers.filter fun row => decide (row.status=.confirmed) &&
    decide (RowId.subscriber row.id∉t.held) &&
    row.signupGroup.any fun name => current.rows.any fun claimed =>
      decide (claimed.signupGroup=some name)

/-- One mail for each key, in the order of the claimed rows. -/
def subscriberMails : List Consumption → List Subscriber → List Mail
  | _, [] => []
  | mailed, row::rows =>
    if row.dedupeKey∈mailed then subscriberMails mailed rows
    else ⟨.subscriber row.id,row.dedupeKey⟩::subscriberMails (row.dedupeKey::mailed) rows

section
variable (s : Shop)

section
variable (t : Transaction)

/-- A variant is queued already, by the transaction itself or by an event that
it does not consume. -/
def isQueued (v : String) : Bool :=
  decide (v∈t.added)||s.events.any fun event => !event.processed &&
    decide (event.variantId=v)&&decide (event.id∉t.events)

/-- Another transaction holds or inserts an event of a variant. -/
def queueLocked (v : String) : Bool :=
  s.pendingTx.any fun other => decide (other.id≠t.id) &&
    (decide (v∈other.added)||s.events.any fun event => !event.processed &&
      decide (event.variantId=v)&&decide (event.id∈other.events))

/-- Consume the sibling rows of the claimed groups, mail each group once and
queue the variant again when a lane filled its cap. -/
def finishVariant : Answer×Shop :=
  match t.current with
  | none => (.idle,s)
  | some current =>
    if (siblings s t current).any (fun row => isHeld s (.subscriber row.id))=true then (.waits,s)
    else if current.requeue=true∧queueLocked s t current.variantId=true then (.waits,s)
    else (.ran,setTx s {t with
      current := none
      held := t.held++(siblings s t current).map fun row => RowId.subscriber row.id
      mails := t.mails++subscriberMails [] current.rows
      added := if current.requeue=true∧isQueued s t current.variantId=false then
        t.added++[current.variantId] else t.added})

/-- Commit a finished transaction. -/
def commitTx (drawn : List ℕ) (now : ℤ) : Answer×Shop :=
  if t.todo=[]∧t.current=none then
    (.ran,{s with
      requests := updateWhere (fun row => decide (RowId.request row.id∈t.held))
        (fun row => {row with status := .notified}) s.requests
      subscribers := updateWhere (fun row => decide (RowId.subscriber row.id∈t.held))
        (fun row => {row with status := .unsubscribed}) s.subscribers
      events := updateWhere (fun event => decide (event.id∈t.events))
        (fun event => {event with processed := true}) s.events ++
        (t.added.zip drawn).map fun entry => ⟨entry.2,entry.1,false,now⟩
      pendingTx := deleteWhere (fun other => decide (other.id=t.id)) s.pendingTx
      mails := s.mails++t.mails
      passed := s.passed.filter fun row => decide (row∉t.held)})
  else (.idle,s)

/-- Roll a transaction back. -/
def rollbackTx : Shop := {s with
    pendingTx := deleteWhere (fun other => decide (other.id=t.id)) s.pendingTx
    passed := s.passed.filter fun row => decide (row∉t.held)}

end

/-- Insert a request unless one of the same address waits. -/
def insertRequest (v email : String) (drawn : ℕ) (now : ℤ) : Shop :=
  if s.requests.any (fun row => decide (row.variantId=v)&&decide (row.email=email) &&
      decide (row.status=.pending))=true then s
  else {s with requests := s.requests++[⟨drawn,v,email,.pending,now⟩]}

/-- Ask to be notified of a variant. A variant in stock is a success without
effect, and the insert waits for a transaction that holds the waiting row. -/
def signUp (v email : String) (drawn : ℕ) (now : ℤ) : Answer×Shop :=
  if 0<available s v then (.ran,s)
  else if s.requests.any (fun row => decide (row.variantId=v)&&decide (row.email=email) &&
      decide (row.status=.pending)&&isHeld s (.request row.id))=true then (.waits,s)
  else (.ran,insertRequest s v email drawn now)

def cancelRequest (id : ℕ) : Answer×Shop :=
  if isHeld s (.request id)=true then (.waits,s)
  else (.ran,{s with
    requests := updateWhere (fun row => decide (row.id=id)&&decide (row.status=.pending))
      (fun row => {row with status := .canceled}) s.requests})

/-- Sign up for the topic of a variant: a new row waits for its confirmation,
and a row that left waits for it again. -/
def subscribe (v email : String) (drawn : ℕ) (now : ℤ) : Shop :=
  if s.subscribers.any (fun row => decide (row.variantId=v)&&decide (row.email=email))=true then
    {s with
      subscribers := updateWhere (fun row => decide (row.variantId=v)&&decide (row.email=email) &&
        decide (row.status=.unsubscribed)) (fun row => {row with status := .pending}) s.subscribers}
  else {s with subscribers := s.subscribers++[⟨drawn,v,email,.pending,none,now⟩]}

def confirm (id : ℕ) : Shop := {s with
    subscribers := updateWhere (fun row => decide (row.id=id)&&decide (row.status=.pending))
      (fun row => {row with status := .confirmed}) s.subscribers}

/-- Unsubscribe a pending or confirmed subscriber. -/
def unsubscribe (id : ℕ) : Answer×Shop :=
  if isHeld s (.subscriber id)=true then (.waits,s)
  else (.ran,{s with
    subscribers := updateWhere (fun row => decide (row.id=id))
      (fun row => {row with status := .unsubscribed}) s.subscribers})

/-- A stock write makes an unavailable variant available. -/
def crosses (v : String) (stock : Stock) : Prop :=
  0<stock.onHand-stock.allocated∧available s v≤0

end

instance (s : Shop) (v : String) (stock : Stock) : Decidable (crosses s v stock) := by
  unfold crosses
  infer_instance

section
variable (s : Shop) (v : String)

/-- An open transaction holds or inserts an event of a variant. -/
def eventHeld : Bool :=
  s.pendingTx.any fun t => decide (v∈t.added)||s.events.any fun event => !event.processed &&
    decide (event.variantId=v)&&decide (event.id∈t.events)

/-- Queue a variant unless an unprocessed event of it is there. -/
def queueEvent (drawn : ℕ) (now : ℤ) : Shop :=
  if s.events.any (fun event => !event.processed&&decide (event.variantId=v))=true then s
  else {s with events := s.events++[⟨drawn,v,false,now⟩]}

/-- Write the stock of a variant. The trigger queues the variant when it
becomes available, and its insert waits for a transaction that holds the
variant's event. -/
def writeStock (stock : Stock) (drawn : ℕ) (now : ℤ) : Answer×Shop :=
  if crosses s v stock then
    if eventHeld s v=true then (.waits,s)
    else (.ran,{queueEvent s v drawn now with stock := Function.update s.stock v stock})
  else (.ran,{s with stock := Function.update s.stock v stock})

end

end SellRight.RestockNotices
