import SellRight.RowTable

/-!
# Outboxes

Webhooks, e-mails and pushes wait in a table each. A pass claims the due rows
and commits before it delivers anything; the outcome of a delivery is recorded
later, and only while the claim is still the current one.
-/

namespace SellRight.OutboxClaims

open RowTable

/-- The three outboxes. -/
inductive Outbox where
  | webhook | email | push
  deriving DecidableEq

/-- State of a row of an outbox. -/
inductive Status where
  | pending | processing | delivered | sent | failed | dead
  deriving DecidableEq

/-- A row in this state is finished. -/
def Status.finished (status : Status) : Bool :=
  decide (status≠.pending)&&decide (status≠.processing)

/-- What a row delivers. -/
inductive Content where
  | webhook (endpointId topic payload : String)
  /-- A rendered e-mail; the key keeps an event from sending it twice. -/
  | email (kind recipient payload : String) (dedupeKey : Option String)
  | push (topic deviceToken environment payload : String)
  deriving DecidableEq

/-- Row of an outbox. -/
structure Row where
  id : String
  content : Content
  status : Status
  attempts : ℕ
  (nextAttemptAt updatedAt : ℤ)
  (claimedAt completedAt firstFailedAt : Option ℤ)
  lastError : Option String

/-- Subscribed webhook endpoint. -/
structure Endpoint where
  id : String
  enabled : Bool
  topics : List String

/-- Notice about an e-mail that will not be delivered. -/
structure DeadNotice where
  (id kind recipient : String)
  attempts : ℕ
  lastError : String

/-- Tables of one store. -/
structure Store where
  (webhooks emails pushes : List Row)
  endpoints : List Endpoint
  deviceTokens : List String
  (audit events : List DeadNotice)

variable (db : Store)

def table : Outbox → List Row
  | .webhook => db.webhooks
  | .email => db.emails
  | .push => db.pushes

/-- Replace the table of an outbox. -/
def setTable (box : Outbox) (rows : List Row) : Store :=
  match box with
  | .webhook => {db with webhooks := rows}
  | .email => {db with emails := rows}
  | .push => {db with pushes := rows}

@[simp] theorem table_setTable_self (box : Outbox) (rows : List Row) :
    table (setTable db box rows) box=rows := by
  cases box <;> rfl

theorem table_setTable_other {box other : Outbox} (rows : List Row)
    (hne : other≠box) : table (setTable db box rows) other=table db other := by
  cases box <;> cases other <;> first | rfl | exact absurd rfl hne

/-- Claim of a row as a worker holds it. -/
structure Claimed where
  box : Outbox
  id : String
  content : Content
  attempts : ℕ
  deriving DecidableEq

/-- New row of an outbox. -/
def newRow (id : String) (content : Content) (now : ℤ) : Row :=
  { id := id
    content := content
    status := .pending
    attempts := 0
    nextAttemptAt := now
    updatedAt := now
    claimedAt := none
    completedAt := none
    firstFailedAt := none
    lastError := none}

/-- Key of an e-mail. -/
def dedupeKey (row : Row) : Option String :=
  match row.content with
  | .email _ _ _ key => key
  | _ => none

/-- Enqueue an e-mail; nothing happens where its key is stored. -/
def enqueueEmail (id kind recipient payload : String) (key : Option String)
    (now : ℤ) : Store :=
  if key≠none∧db.emails.any fun row => decide (dedupeKey row=key) then db
  else {db with emails := db.emails++[newRow id (.email kind recipient payload key) now]}

/-- Endpoints that receive events of a topic. -/
def subscribed (topic : String) : List Endpoint :=
  db.endpoints.filter fun e => e.enabled&&(decide ("*" ∈ e.topics)||decide (topic∈e.topics))

/-- Enqueue an event for every subscribed endpoint, under drawn identifiers. -/
def emitEvent (drawn : List String) (topic payload : String) (now : ℤ) : Store :=
  {db with
    webhooks := db.webhooks++(drawn.zip (subscribed db topic)).map fun entry =>
      newRow entry.1 (.webhook entry.2.id topic payload) now}

/-- Enqueue a push for every given device, under drawn identifiers. -/
def enqueuePush (drawn : List String) (devices : List (String×String))
    (topic payload : String) (now : ℤ) : Store :=
  {db with
    pushes := db.pushes++(drawn.zip devices).map fun entry =>
      newRow entry.1 (.push topic entry.2.1 entry.2.2 payload) now}

/-- A row waits and is due. -/
def duePending (cutoff : ℤ) (row : Row) : Bool :=
  decide (row.status=.pending)&&decide (row.nextAttemptAt≤cutoff)

/-- A claim that was not finished within ten minutes. -/
def staleClaim (now : ℤ) (row : Row) : Bool :=
  decide (row.status=.processing)&&decide (row.updatedAt<now-600000)

/-- Rows a pass takes: the eligible ones that no other transaction holds, in
order, up to the limit. -/
def takeDue (eligible : Row → Bool) (order : Row → Row → Prop) [DecidableRel order]
    (limit : ℕ) (locked : List String) (rows : List Row) : List String :=
  (((rows.filter fun row => eligible row&&decide (row.id∉locked)).insertionSort order).take
    limit).map Row.id

/-- A claim counts itself and stamps its time. -/
def claimRow (now : ℤ) (row : Row) : Row :=
  {row with
    status := .processing
    attempts := row.attempts+1
    updatedAt := now
    claimedAt := some now}

/-- Claim the picked rows of an outbox and return them. -/
def claimPicked (box : Outbox) (picked : List String) (now : ℤ) :
    List Claimed×Store :=
  let rows := updateWhere (fun row => decide (row.id∈picked)) (claimRow now) (table db box)
  ((rows.filter fun row => decide (row.id∈picked)).map fun row =>
      ⟨box,row.id,row.content,row.attempts⟩,
    setTable db box rows)

/-- The endpoint of a webhook delivery is stored. -/
def hasEndpoint (id : String) : Bool :=
  db.webhooks.any fun row => decide (row.id=id) &&
    match row.content with
    | .webhook endpointId _ _ => db.endpoints.any fun e => decide (e.id=endpointId)
    | _ => false

/-- Claim one due webhook delivery. -/
def claimDueWebhooks (cutoff now : ℤ) (locked : List String) : List Claimed×Store :=
  claimPicked db .webhook
    ((takeDue (duePending cutoff)
      (fun a b => a.nextAttemptAt<b.nextAttemptAt ∨
        (a.nextAttemptAt=b.nextAttemptAt∧a.id≤b.id)) 1 locked db.webhooks).filter
      (hasEndpoint db)) now

section
variable (db : Store) (now : ℤ) (limit : ℕ) (locked : List String)

/-- Claim due e-mails, those of a stale claim among them. -/
def claimDueEmails : List Claimed×Store :=
  claimPicked db .email
    (takeDue (fun row => duePending now row||staleClaim now row)
      (fun a b => a.nextAttemptAt≤b.nextAttemptAt) limit locked db.emails) now

/-- Claim due pushes, those of a stale claim among them. -/
def claimDuePushes : List Claimed×Store :=
  claimPicked db .push
    (takeDue (fun row => duePending now row||staleClaim now row)
      (fun a b => a.nextAttemptAt≤b.nextAttemptAt) limit locked db.pushes) now

end

/-- A reset row waits again. -/
def resetRow (now : ℤ) (note : String) (row : Row) : Row :=
  {row with
    status := .pending
    claimedAt := none
    updatedAt := now
    lastError := some (row.lastError.getD "" ++ note)}

/-- Reset webhook deliveries that have been claimed for too long. -/
def reapStuckWebhooks (now : ℤ) (graceMin batchLimit : ℕ) (locked : List String) :
    List String×Store :=
  let cutoff := now-graceMin*60000
  let picked := takeDue
    (fun row => decide (row.status=.processing)&&decide (row.updatedAt<cutoff))
    (fun a b => a.updatedAt<b.updatedAt∨(a.updatedAt=b.updatedAt∧a.id≤b.id))
    batchLimit locked db.webhooks
  (picked,{db with
    webhooks := updateWhere (fun row => decide (row.id∈picked))
      (resetRow now (" [reaped after " ++ toString graceMin ++ "m stuck]")) db.webhooks})

variable (claim : Claimed)

/-- The claim is still the current one of its row. -/
def fence (row : Row) : Bool :=
  decide (row.id=claim.id)&&decide (row.status=.processing) && decide (row.attempts=claim.attempts)

/-- Claims after which a delivery is given up. -/
def maxAttempts : Outbox → ℕ
  | .webhook => 6
  | .email => 5
  | .push => 5

/-- Seconds until the next claim, by the number of claims so far. -/
def backoffSteps : Outbox → List ℤ
  | .webhook => [30,120,600,3600,21600]
  | .email => [60,300,1800,7200,43200]
  | .push => [60,300,1800,7200,43200]

/-- Wait after a failed claim, in milliseconds. -/
def backoff : ℤ :=
  1000*(backoffSteps claim.box).getD (min (claim.attempts-1) ((backoffSteps claim.box).length-1)) 0

/-- State of a row that was given up. -/
def gaveUp : Outbox → Status
  | .webhook => .failed
  | .email => .dead
  | .push => .dead

/-- A row whose delivery succeeded. A webhook keeps its last error. -/
def completeRow (box : Outbox) (now : ℤ) (row : Row) : Row :=
  {row with
    status := if box=.webhook then .delivered else .sent
    completedAt := some now
    updatedAt := now
    claimedAt := none
    lastError := if box=.webhook then row.lastError else none}

/-- A row whose delivery failed: it is given up after its last claim, else it
waits once more. -/
def failRow (error : String) (now : ℤ) (row : Row) : Row :=
  {row with
    lastError := some error
    status := if maxAttempts claim.box≤claim.attempts then gaveUp claim.box else .pending
    nextAttemptAt := now+backoff claim
    updatedAt := now
    claimedAt := none
    firstFailedAt := row.firstFailedAt.or (some now)}

/-- A row that is dropped without another claim. -/
def dropRow (error : String) (now : ℤ) (row : Row) : Row :=
  {row with
    status := .dead
    lastError := some error
    updatedAt := now
    claimedAt := none
    firstFailedAt := row.firstFailedAt.or (some now)}

/-- Answer of a finalizer. -/
inductive Finalized where
  | delivered | sent | retry | dead | stale

/-- Outcome of a delivery. -/
inductive Outcome where
  | ok
  | failed (error : String)

inductive PushOutcome where
  | sent
  | unregistered (error : String)
  | cancelled (error : String)
  | failed (error : String)

section
variable (db : Store) (claim : Claimed)

/-- Rewrite the row of a claim while the claim is current. -/
def finishRow (f : Row → Row) : Store :=
  setTable db claim.box (updateWhere (fence claim) f (table db claim.box))

/-- The row of a claim is still claimed by it. -/
def current : Bool := (table db claim.box).any (fence claim)

/-- Record the outcome of a webhook delivery. -/
def finalizeWebhookDelivery (outcome : Outcome) (now : ℤ) : Finalized×Store :=
  match outcome with
  | .ok => (.delivered,finishRow db claim (completeRow .webhook now))
  | .failed error =>
    (if maxAttempts .webhook≤claim.attempts then .dead else .retry,
      finishRow db claim (failRow claim error now))

end

/-- Notice about a claim that was given up. -/
def deadNotice (error : String) : DeadNotice :=
  match claim.content with
  | .email kind recipient _ _ => ⟨claim.id,kind,recipient,claim.attempts,error⟩
  | _ => ⟨claim.id, "", "",claim.attempts,error⟩

/-- Note a dead e-mail in the audit log and emit its event. -/
def announceDead (drawn : List String) (notice : DeadNotice) (now : ℤ) : Store :=
  {emitEvent {db with audit := db.audit++[notice]} drawn "email.dead" notice.id now with
    events := db.events++[notice]}

/-- Record the outcome of an e-mail. -/
def finalizeEmail (claim : Claimed) (outcome : Outcome) (drawn : List String)
    (now : ℤ) : Finalized×Store :=
  match outcome with
  | .ok => (if current db claim then .sent else .stale,finishRow db claim (completeRow .email now))
  | .failed error =>
    let failed := finishRow db claim (failRow claim error now)
    if !current db claim then (.stale,failed)
    else if claim.attempts < maxAttempts .email then (.retry,failed)
    else (.dead,announceDead failed drawn (deadNotice claim error) now)

def deviceToken : Option String :=
  match claim.content with
  | .push _ token _ _ => some token
  | _ => none

/-- Record the outcome of a push. An unregistered device loses its token. -/
def finalizePush (claim : Claimed) (outcome : PushOutcome) (now : ℤ) :
    Finalized×Store :=
  match outcome with
  | .sent => (if current db claim then .sent else .stale,finishRow db claim (completeRow .push now))
  | .cancelled error =>
    (if current db claim then .dead else .stale,finishRow db claim (dropRow error now))
  | .unregistered error =>
    let dropped := finishRow db claim (dropRow error now)
    if !current db claim then (.stale,dropped)
    else (.dead,{dropped with
      deviceTokens := dropped.deviceTokens.filter fun token => decide (some token≠deviceToken claim)})
  | .failed error =>
    (if !current db claim then .stale
      else if maxAttempts .push≤claim.attempts then .dead else .retry,
      finishRow db claim (failRow claim error now))

end SellRight.OutboxClaims
