import SellRight.RowTable
import SellRight.RunHistory

/-!
# Pending effects of settlement operations

The effect rows of an operation with the steps that store, claim, fence and
finish them. Several workers and the recording transactions interleave at
statement and transaction boundaries; a transaction in flight holds the lock
of the row it works on. Which provider call or table change a handler makes
is left open: a run of a handler is known by its outcome.
-/

namespace SellRight.EffectsEngine

open RowTable

inductive SettlementKind where
  | stripeInvoicePaid | paymentSettled | paymentStateProgress | orderPaidTransition
  | adminDraftCreate | orderEditBalanceSettled | duplicateCaptureRecorded | historicalImport
  | syntheticSeed | paymentModeCorrected | orderPurge | operatorResolution | orderRefunded
  | disputeOpened
  deriving DecidableEq

inductive EffectKind where
  | licenseIssue | licenseExtend | editReconcile | loyaltyEarn | notification
  | entitlementReversal | adminReview
  deriving DecidableEq

/-- Effect kinds in execution rank order. -/
def effectKinds : List EffectKind :=
  [.licenseIssue,.licenseExtend,.editReconcile,.loyaltyEarn,.notification,
    .entitlementReversal,.adminReview]

/-- Position of a kind in the rank order, the length of the order for a kind
outside of it. -/
def effectRank (kind : EffectKind) : ℕ := effectKinds.idxOf kind

/-- Rank read by the claim query: array positions start at one and a missing
kind counts as the length of the order. -/
def sqlRank (kind : EffectKind) : ℕ :=
  if kind∈effectKinds then effectKinds.idxOf kind+1 else effectKinds.length

/-- Status of an effect row. -/
inductive EffectStatus where
  | pending | processing | done | terminal
  deriving DecidableEq

/-- Milliseconds after which a claim may be taken over. -/
def staleClaimMs : ℤ := 5*60000

/-- After this many failed attempts an effect is terminal. -/
def maxAttempts : ℕ := 8

/-- Seconds until the next attempt. -/
def backoffSeconds (attempts : ℕ) : ℕ := min (2 ^ max attempts 1*30) 3600

structure Operation where
  kind : SettlementKind
  id : String
  deriving DecidableEq

/-- Request for one effect of an operation. -/
structure EffectRequest where
  kind : EffectKind
  reason : Option String

/-- Row of the pending effect table. -/
structure EffectRow where
  id : ℕ
  operation : Operation
  effectKind : EffectKind
  status : EffectStatus
  /-- Claims made since the row was stored or requeued. -/
  attempts : ℕ
  claimToken : Option ℕ
  claimedAt : Option ℤ
  nextAttemptAt : ℤ
  lastError : Option String
  firstFailedAt : Option ℤ
  result : Option String
  createdAt : ℤ
  deriving DecidableEq

/-- A handler asks for another attempt. -/
structure Retry where
  reason : String
  (delayMs horizonMs : Option ℤ)

/-- Outcome returned by a handler. -/
inductive EffectOutcome where
  | done (result : String)
  | retry (retry : Retry)
  | terminal (reason : String)

/-- How one run of a handler ends. -/
inductive HandlerRun where
  | returned (outcome : EffectOutcome)
  | threw (message : String)

/-- Mode of a registered handler. -/
inductive HandlerMode where
  | local | external
  deriving DecidableEq

abbrev Registry := EffectKind → Option HandlerMode

/-- Result of processing one claimed effect. -/
inductive ProcessResult where
  | done | retry | terminal | stale
  deriving DecidableEq

/-- Tables of one store that the engine writes. -/
structure Database where
  rows : List EffectRow
  operations : List Operation
  receipts : List (ℕ×String)
  announced : List ℕ
  (nextId nextToken : ℕ)

/-- The row is not finished yet. -/
def isOpen (row : EffectRow) : Bool :=
  decide (row.status=.pending∨row.status=.processing)

/-- The stored row is the one a claimant holds: same row, same token, still
processing. -/
def claimedBy (row cur : EffectRow) : Bool :=
  decide (cur.id=row.id∧row.claimToken≠none∧cur.claimToken=row.claimToken∧cur.status=.processing)

variable (now : ℤ)

/-- Stored form of a new effect row. -/
def newRow (op : Operation) (req : EffectRequest) (id : ℕ) : EffectRow :=
  let review := decide (req.kind=.adminReview)
  { id := id
    operation := op
    effectKind := req.kind
    status := if review then .terminal else .pending
    attempts := 0
    claimToken := none
    claimedAt := none
    nextAttemptAt := now
    lastError := if review then some (req.reason.getD "held for review") else none
    firstFailedAt := if review then some now else none
    result := none
    createdAt := now}

variable (db : Database)

/-- Announce a terminal effect. -/
def announceTerminal (id : ℕ) : Database :=
  {db with announced := db.announced++[id]}

/-- Insert one effect row unless its identity is stored already. -/
def enqueueEffect (op : Operation) (db : Database) (req : EffectRequest) : Database :=
  if db.rows.any (fun row => decide (row.operation=op∧row.effectKind=req.kind)) then db
  else
    let row := newRow now op req db.nextId
    let stored := {db with rows := db.rows++[row], nextId := db.nextId+1}
    if req.kind=.adminReview then announceTerminal stored row.id else stored

/-- Insert the effect rows of one operation. -/
def enqueueEffects (op : Operation) (db : Database) (requests : List EffectRequest) :
    Database :=
  requests.foldl (enqueueEffect now op) db

/-- Write the row of a claim, refused when the claim was lost. -/
def fencedUpdate (row : EffectRow) (write : EffectRow → EffectRow) :
    Option Database :=
  if db.rows.any (claimedBy row) then
    some {db with rows := updateWhere (claimedBy row) write db.rows}
  else none

/-- Columns of a row that ends terminal. -/
def terminalRow (row : EffectRow) (reason : String) (cur : EffectRow) : EffectRow :=
  {cur with
    status := .terminal
    claimToken := none
    claimedAt := none
    lastError := some reason
    firstFailedAt := some (row.firstFailedAt.getD now)}

/-- Columns of a row that waits for its next attempt. -/
def retriedRow (row : EffectRow) (retry : Retry) (cur : EffectRow) : EffectRow :=
  {cur with
    status := .pending
    claimToken := none
    claimedAt := none
    nextAttemptAt := now+retry.delayMs.getD (backoffSeconds row.attempts*1000)
    lastError := some retry.reason
    firstFailedAt := some (row.firstFailedAt.getD now)}

/-- Columns of a finished row. -/
def doneRow (result : String) (cur : EffectRow) : EffectRow :=
  {cur with
    status := .done
    lastError := none
    result := some result}

/-- End a claimed row terminal and ask for a review of its operation. -/
def markTerminal (now : ℤ) (row : EffectRow) (reason : String) : Option Database :=
  match fencedUpdate db row (terminalRow now row reason) with
  | none => none
  | some written =>
    let announced := announceTerminal written row.id
    if row.effectKind=.adminReview then some announced
    else some (enqueueEffects now row.operation announced [⟨.adminReview,some reason⟩])

/-- No further attempt is allowed: the horizon of a not-ready retry has
passed, or a failure used up the attempts. -/
def exhausted (row : EffectRow) (retry : Retry) : Bool :=
  match retry.horizonMs with
  | some horizon => decide (horizon<now-row.firstFailedAt.getD now)
  | none => decide (maxAttempts≤row.attempts)

/-- Plan the next attempt of a claimed row, or end it terminal. -/
def markRetryOrTerminal (now : ℤ) (row : EffectRow) (retry : Retry) :
    Option (ProcessResult×Database) :=
  if exhausted now row retry then
    (markTerminal db now row retry.reason).map fun written => (.terminal,written)
  else (fencedUpdate db row (retriedRow now row retry)).map fun written => (.retry,written)

/-- Record the outcome of a handler on the claimed row. -/
def applyOutcome (now : ℤ) (row : EffectRow) :
    EffectOutcome → Option (ProcessResult×Database)
  | .retry retry => markRetryOrTerminal db now row retry
  | .terminal reason => (markTerminal db now row reason).map fun written => (.terminal,written)
  | .done result => (fencedUpdate db row (doneRow result)).map fun written => (.done,written)

/-- A handler run was started: the claimed row and the table it met. -/
structure HandlerStart where
  effect : EffectRow
  rows : List EffectRow

/-- A transaction committed the work of a handler with the status of its row. -/
structure HandlerCommit where
  effectId : ℕ
  result : ProcessResult

/-- Claim handed out on a row. -/
structure Claim where
  (effectId token : ℕ)
  deriving DecidableEq

/-- What a running inline execution has done so far. -/
structure Inline where
  db : Database
  starts : List HandlerStart
  commits : List HandlerCommit
  claims : List Claim

/-- Columns of a row claimed with a fresh token. -/
def claimedRow (token attempts : ℕ) (cur : EffectRow) : EffectRow :=
  {cur with
    status := .processing
    claimToken := some token
    claimedAt := some now
    attempts := attempts}

/-- Claim one selected row inside the recording transaction. -/
def claimInline (row : EffectRow) (db : Database) : Database :=
  {db with
    rows := updateWhere (fun cur => decide (cur.id=row.id∧cur.status=.pending))
      (claimedRow now db.nextToken (row.attempts+1)) db.rows
    nextToken := db.nextToken+1}

variable (registry : Registry)

/-- Claim and run one selected effect inside the recording transaction. The
flag tells that the transaction aborts. -/
def executeRow (now : ℤ) (outcomes : ℕ → HandlerRun) (s : Inline)
    (row : EffectRow) : Inline×Bool :=
  match registry row.effectKind with
  | some .external => (s,false)
  | none => (s,true)
  | some .local =>
    match s.db.rows.find? (fun cur => decide (cur.id=row.id∧cur.status=.pending)) with
    | none => (s,false)
    | some cur =>
      let claimed := claimedRow now s.db.nextToken (row.attempts+1) cur
      let db := claimInline now row s.db
      let begun : Inline :=
        {s with
          db := db
          starts := s.starts++[⟨claimed,db.rows⟩]
          claims := s.claims++[⟨row.id,s.db.nextToken⟩]}
      match outcomes row.id with
      | .threw _ => (begun,true)
      | .returned outcome =>
        match applyOutcome db now claimed outcome with
        | none => (begun,true)
        | some (result,written) =>
          ({begun with
             db := written
             commits := begun.commits++[⟨row.id,result⟩]},false)

/-- Run the selected effects in turn until one aborts the transaction. -/
def executeRows (registry : Registry) (now : ℤ) (outcomes : ℕ → HandlerRun) :
    Inline → List EffectRow → Inline×Bool
  | s, [] => (s,false)
  | s, row::rest =>
    match executeRow registry now outcomes s row with
    | (next,true) => (next,true)
    | (next,false) => executeRows registry now outcomes next rest

/-- Pending rows among the given ones, in rank order. -/
def inlineRows (ids : List ℕ) : List EffectRow :=
  (db.rows.filter fun row => decide (row.id∈ids∧row.status=.pending)).insertionSort
    fun a b => effectRank a.effectKind≤effectRank b.effectKind

/-- The row is due: pending and its time has come, or claimed too long ago. -/
def isDue (row : EffectRow) : Bool :=
  match row.status, row.claimedAt with
  | .pending, _ => decide (row.nextAttemptAt≤now)
  | .processing, some claimedAt => decide (claimedAt<now-staleClaimMs)
  | _, _ => false

/-- An open sibling of smaller rank that holds a row back. -/
def holdsBack (row sibling : EffectRow) : Bool :=
  decide (sibling.operation=row.operation∧sibling.id≠row.id∧isOpen sibling=true ∧
    sibling.effectKind≠.adminReview∧sqlRank sibling.effectKind<sqlRank row.effectKind)

/-- The rank gate of the claim query, read from the statement's snapshot. -/
def gateOpen (snapshot : List EffectRow) (row : EffectRow) : Bool :=
  !snapshot.any (holdsBack row)

section
variable (snapshot : List EffectRow) (locked : List ℕ) (now : ℤ)

/-- Rows a claim statement may take: due and ungated in its snapshot, still
due when it locks them, and not locked by a transaction in flight. -/
def claimable (row : EffectRow) : Bool :=
  isDue now row&&gateOpen snapshot row && !decide (row.id∈locked) &&
    snapshot.any fun seen => decide (seen.id=row.id)&&isDue now seen

/-- Rows of one claim in queue order, at most the limit. -/
def dueRows (limit : ℕ) (db : Database) : List EffectRow :=
  ((db.rows.filter (claimable snapshot locked now)).insertionSort fun a b =>
    a.nextAttemptAt<b.nextAttemptAt ∨
      (a.nextAttemptAt=b.nextAttemptAt∧a.createdAt≤b.createdAt)).take limit

end

/-- Claim one due row with a fresh token. -/
def claimRow (db : Database) (row : EffectRow) : Database :=
  {db with
    rows := updateWhere (fun cur => decide (cur.id=row.id))
      (claimedRow now db.nextToken (row.attempts+1)) db.rows
    nextToken := db.nextToken+1}

/-- Claim rows one after another, returning them as their claimants see
them. -/
def claimRows (now : ℤ) : Database → List EffectRow → Database×List EffectRow
  | db, [] => (db,[])
  | db, row::rest =>
    let claimed := claimedRow now db.nextToken (row.attempts+1) row
    let (next,others) := claimRows now (claimRow now db row) rest
    (next,claimed::others)

/-- The claim a claimed row carries. -/
def claimOf (row : EffectRow) : Option Claim := row.claimToken.map (Claim.mk row.id)

/-- Tables together with what the workers and transactions in flight hold and
the record of what happened. -/
structure Engine where
  db : Database
  held : List EffectRow
  /-- Rows locked by transactions in which a handler is running. -/
  running : List EffectRow
  /-- External claimants that passed the fenced look-up, with a receipt when
  one was found. -/
  called : List (EffectRow×Option String)
  snapshots : List (List EffectRow)
  claims : List Claim
  starts : List HandlerStart
  commits : List HandlerCommit

/-- Identifiers of the rows locked by transactions in flight. -/
def lockedIds (s : Engine) : List ℕ := s.running.map EffectRow.id

/-- One atomic step of a worker, a recording transaction or an
administrator. -/
inductive Action where
  | record (now : ℤ) (op : Operation) (requests : List EffectRequest)
  | enqueue (now : ℤ) (op : Operation) (requests : List EffectRequest)
  /-- Run the given effects inside the recording transaction. -/
  | executeNow (now : ℤ) (ids : List ℕ) (outcomes : ℕ → HandlerRun)
  | observe
  /-- A claim statement with an earlier snapshot claims due rows. -/
  | claimDue (now : ℤ) (limit view : ℕ)
  /-- A worker opens the fenced transaction of a local effect. -/
  | start (row : EffectRow)
  | finish (now : ℤ) (row : EffectRow) (run : HandlerRun)
  /-- A worker looks up the receipt of an external effect. -/
  | lookup (row : EffectRow)
  /-- A worker completes an external effect after the provider call. -/
  | complete (now : ℤ) (row : EffectRow) (providerRef : String) (completed : Bool)
  | failClaimed (now : ℤ) (row : EffectRow) (reason : String)
  | requeue (now : ℤ) (id : ℕ)

inductive Answer where
  | silent
  /-- The step is not possible in this state. -/
  | blocked
  | claimed (rows : List EffectRow)
  | started
  | processed (result : ProcessResult)
  | aborted
  | requeued (moved : Bool)

/-- Record an operation once and store its effects. A replay of the operation
stores nothing. -/
def recordOperation (op : Operation) (requests : List EffectRequest) (db : Database) :
    Database :=
  if op∈db.operations then db
  else enqueueEffects now op {db with operations := db.operations++[op]} requests

/-- Claim and run effects inside one transaction, which commits or leaves
the tables as they were. -/
def executeEffectsNow (now : ℤ) (ids : List ℕ) (outcomes : ℕ → HandlerRun)
    (s : Engine) : Answer×Engine :=
  match executeRows registry now outcomes ⟨s.db,s.starts,s.commits,s.claims⟩
      (inlineRows s.db ids) with
  | (run,true) => (.aborted,{s with starts := run.starts})
  | (run,false) =>
    (.silent,
      {s with
        db := run.db
        starts := run.starts
        commits := run.commits
        claims := run.claims})

/-- Claim a batch of due effects. -/
def claimDueEffects (limit view : ℕ) (s : Engine) : Answer×Engine :=
  let snapshot := (s.snapshots[view]?).getD s.db.rows
  let (db,claimed) := claimRows now s.db (dueRows snapshot (lockedIds s) now limit s.db)
  let handed := claimed.insertionSort fun a b => effectRank a.effectKind≤effectRank b.effectKind
  (.claimed handed,
    {s with
      db := db
      held := s.held++handed
      claims := s.claims++claimed.filterMap claimOf})

/-- Open the fenced transaction of a claimed local effect and start its
handler. -/
def startClaimed (row : EffectRow) (s : Engine) : Answer×Engine :=
  if row∉s.held∨registry row.effectKind≠some .local then (.blocked,s)
  else
    match s.db.rows.find? (claimedBy row) with
    | none => (.processed .stale,s)
    | some cur =>
      if cur.id∈lockedIds s then (.blocked,s)
      else
        (.started,
          {s with
            running := s.running++[cur]
            starts := s.starts++[⟨cur,s.db.rows⟩]})

/-- Commit or roll back the transaction of a running handler. -/
def finishClaimed (row : EffectRow) (run : HandlerRun) (s : Engine) : Answer×Engine :=
  if row∉s.running then (.blocked,s)
  else
    let released := {s with running := s.running.erase row}
    match run with
    | .threw _ => (.aborted,released)
    | .returned outcome =>
      match applyOutcome s.db now row outcome with
      | none => (.processed .stale,released)
      | some (result,db) =>
        (.processed result,
          {released with
            db := db
            commits := s.commits++[⟨row.id,result⟩]})

/-- Fenced look-up of the receipt before a provider call. -/
def lookupReceipt (row : EffectRow) (s : Engine) : Answer×Engine :=
  if row∉s.held∨registry row.effectKind≠some .external then (.blocked,s)
  else
    match s.db.rows.find? (claimedBy row) with
    | none => (.processed .stale,s)
    | some cur =>
      if cur.id∈lockedIds s then (.blocked,s)
      else
        let receipt := (s.db.receipts.find? fun entry => decide (entry.1=row.id)).map Prod.snd
        (.started,
          {s with
            called := s.called++[(row,receipt)]
            starts := if receipt=none then s.starts++[⟨cur,s.db.rows⟩] else s.starts})

/-- Store a receipt unless the effect has one. -/
def insertReceipt (id : ℕ) (providerRef : String) : Database :=
  if db.receipts.any fun entry => decide (entry.1=id) then db
  else {db with receipts := db.receipts++[(id,providerRef)]}

/-- Commit the receipt, the follow-up and the finished row of an external
effect together. -/
def completeExternal (row : EffectRow) (providerRef : String) (completed : Bool)
    (s : Engine) : Answer×Engine :=
  match s.called.find? fun entry => decide (entry.1=row) with
  | none => (.blocked,s)
  | some (_,receipt) =>
    match s.db.rows.find? (claimedBy row) with
    | none => (.processed .stale,s)
    | some cur =>
      if cur.id∈lockedIds s then (.blocked,s)
      else if !completed then (.aborted,s)
      else
        match applyOutcome (insertReceipt s.db row.id (receipt.getD providerRef)) now cur
            (.done "\x7b\x7d") with
        | none => (.processed .stale,s)
        | some (result,db) =>
          (.processed result,
            {s with
              db := db
              commits := s.commits++[⟨row.id,result⟩]})

/-- Record a failed attempt of a claimant. -/
def failClaimed (row : EffectRow) (reason : String) (s : Engine) : Answer×Engine :=
  if row∉s.held then (.blocked,s)
  else if s.db.rows.any (claimedBy row)&&decide (row.id∈lockedIds s) then (.blocked,s)
  else
    match markRetryOrTerminal s.db now row ⟨reason,none,none⟩ with
    | none => (.processed .stale,s)
    | some (result,db) => (.processed result,{s with db := db})

/-- Columns of a requeued row. -/
def requeuedRow (cur : EffectRow) : EffectRow :=
  {cur with
    status := .pending
    attempts := 0
    claimToken := none
    claimedAt := none
    lastError := none
    firstFailedAt := none
    nextAttemptAt := now}

/-- The row is terminal and executable. -/
def requeueable (id : ℕ) (row : EffectRow) : Bool :=
  decide (row.id=id∧row.status=.terminal∧row.effectKind≠.adminReview)

/-- Put a terminal effect back in the queue. -/
def requeueTerminalEffect (id : ℕ) (s : Engine) : Answer×Engine :=
  (.requeued (s.db.rows.any (requeueable id)),
    {s with db := {s.db with
      rows := updateWhere (requeueable id) (requeuedRow now) s.db.rows}})

def step (s : Engine) : Action → Answer×Engine
  | .record now op requests => (.silent,{s with db := recordOperation now op requests s.db})
  | .enqueue now op requests =>
    if op∈s.db.operations then (.silent,{s with db := enqueueEffects now op s.db requests})
    else (.aborted,s)
  | .executeNow now ids outcomes => executeEffectsNow registry now ids outcomes s
  | .observe => (.silent,{s with snapshots := s.snapshots++[s.db.rows]})
  | .claimDue now limit view => claimDueEffects now limit view s
  | .start row => startClaimed registry row s
  | .finish now row run => finishClaimed now row run s
  | .lookup row => lookupReceipt registry row s
  | .complete now row providerRef completed => completeExternal now row providerRef completed s
  | .failClaimed now row reason => failClaimed now row reason s
  | .requeue now id => requeueTerminalEffect now id s

/-- No operation has been recorded yet. -/
def emptyEngine : Engine where
  db :=
    { rows := []
      operations := []
      receipts := []
      announced := []
      nextId := 0
      nextToken := 0}
  held := []
  running := []
  called := []
  snapshots := []
  claims := []
  starts := []
  commits := []

end SellRight.EffectsEngine
