import SellRight.RowTable
import SellRight.RunHistory

/-!
# Customer verifications

The verification rows of one customer, the three cached customer fields reduced to
their entries and categories, and the transactions that rebuild them. Every
statement sees what was committed before it and what its own transaction wrote, and
a written row stays locked until its transaction ends. A statement that rewrites
rows selects them first; a row it has to wait for is rewritten in the version then
committed, if it still meets the conditions on its own columns. Nothing locks the
customer row before it is written.
-/

namespace SellRight.VerificationService

open RowTable

/-- Progress of a verification row. -/
inductive Status
  | pending
  | success
  | failed
  | revoked
  | expired
  deriving DecidableEq

/-- One row of `sheerid_verification`. A missing text is empty. -/
structure Verification where
  id : ℕ
  /-- Identifier given by the provider, empty while unknown. -/
  verificationId : String
  category : String
  status : Status
  expiresAt : Option ℕ
  createdAt : ℕ
  deriving DecidableEq

/-- One entry of the customer's `sheeridVerifications`. -/
structure VerificationEntry where
  category : String
  /-- Identifier given by the provider, empty when there is none. -/
  verificationId : String
  verified : Bool
  expiresAt : Option ℕ
  deriving DecidableEq

def isLive (expiresAt : Option ℕ) (now : ℕ) : Bool :=
  match expiresAt with
  | none => true
  | some lapse => decide (now<lapse)

/-- The entry has a backing row. -/
def isManaged (rows : List Verification) (e : VerificationEntry) : Bool :=
  decide (e.verificationId ≠ "")&&rows.any fun r => decide (r.verificationId=e.verificationId)

/-- The entry is imported data that still counts. -/
def isLegacy (rows : List Verification) (now : ℕ) (e : VerificationEntry) : Bool :=
  !isManaged rows e&&isLive e.expiresAt now&&e.verified&&decide (e.category ≠ "")

/-- The row grants its category. -/
def isGranting (now : ℕ) (r : Verification) : Bool :=
  decide (r.status=.success)&&decide (r.category ≠ "")&&isLive r.expiresAt now

/-- The entry of a row. -/
def entryOf (r : Verification) : VerificationEntry := ⟨r.category,r.verificationId,true,r.expiresAt⟩

/-- The entries that `recomputeCustomerVerifications` writes. -/
def recompute (entries : List VerificationEntry) (rows : List Verification) (now : ℕ) :
    List VerificationEntry :=
  entries.filter (isLegacy rows now)++(rows.filter (isGranting now)).map entryOf

/-- Their categories, each once. -/
def categories (entries : List VerificationEntry) : List String :=
  (entries.map VerificationEntry.category).eraseDups

/-- What the provider reports of a verification of this customer. -/
structure Details where
  (verificationId currentStep : String)
  /-- Category that the store maps the segment to, empty when unmapped. -/
  category : String
  ttl : ℕ
  deriving DecidableEq

/-- The report grants its category. -/
def Details.succeeded (d : Details) : Bool :=
  decide (d.currentStep = "success")&&decide (d.category ≠ "")

/-- What a transaction is for. -/
inductive Request
  | start
  | webhook (details : Details)
  | revoke (category : String)
  | clear (category : Option String)
  | sweep
  | status
  deriving DecidableEq

/-- The request takes this category back. -/
def strikes (request : Request) (category : String) : Bool :=
  match request with
  | .webhook d => !d.succeeded&&decide (d.category ≠ "")&&decide (category=d.category)
  | .revoke struck => decide (category=struck)
  | .clear none => true
  | .clear (some struck) => decide (category=struck)
  | _ => false

def grants (request : Request) (category : String) : Bool :=
  match request with
  | .webhook d => d.succeeded&&decide (category=d.category)
  | _ => false

/-- Next statement of a transaction. -/
inductive Phase
  | insertPending
  | find (details : Details)
  /-- Select the row for the outcome: the one that was found, or a pending one. -/
  | store (details : Details) (existing : Option Verification)
  /-- Write the outcome into the selected row, whatever it is by now, or a new one. -/
  | place (details : Details) (target : Option Verification)
  | readEntries
  /-- Select the rows of the struck categories. Clearing has read the entries. -/
  | revokeRows (read : Option (List VerificationEntry))
  /-- Revoke the selected rows. -/
  | revokeThese (ids : List ℕ) (read : Option (List VerificationEntry))
  /-- Write the entries without the struck categories. -/
  | strip (read : List VerificationEntry)
  /-- Select the lapsed rows. -/
  | sweepRows
  /-- Expire the selected rows. -/
  | expireThese (ids : List ℕ)
  | readCustomer
  | readRows (read : List VerificationEntry)
  | write (entries : List VerificationEntry)
  | finished
  deriving DecidableEq

/-- An open transaction with what it has written. -/
structure Tx where
  conn : ℕ
  request : Request
  (now fresh : ℕ)
  /-- Rewrites of the customer committed before its first statement, none before
  it. Read by no statement. -/
  version : Option ℕ
  /-- Rows it has written. -/
  rows : List Verification
  entries : Option (List VerificationEntry)
  active : Option (List String)
  phase : Phase

/-- What is committed for the customer, and the open transactions. -/
structure Store where
  rows : List Verification
  entries : List VerificationEntry
  active : List String
  (clock nextId : ℕ)
  txs : List Tx
  /-- Rewrites of the customer so far. Read by no statement. -/
  version : ℕ
  /-- Imported entries whose category was not taken back since. Read by no statement. -/
  imported : List VerificationEntry

/-- Stored rows under written ones. -/
def overlay (rows own : List Verification) : List Verification :=
  rows.map (fun r => (own.find? fun o => decide (o.id=r.id)).getD r) ++
    own.filter fun o => !rows.any fun r => decide (r.id=o.id)

variable (s : Store)

/-- Rows that a statement of the transaction sees. -/
def seen (t : Tx) : List Verification := overlay s.rows t.rows

/-- Another transaction has written the customer. -/
def customerHeld (conn : ℕ) : Bool :=
  s.txs.any fun t => decide (t.conn≠conn)&&t.entries.isSome

/-- Another transaction has written the row. -/
def rowHeld (conn id : ℕ) : Bool :=
  s.txs.any fun t => decide (t.conn≠conn)&&t.rows.any fun r => decide (r.id=id)

/-- Another transaction has written a row with this provider identifier. -/
def verificationHeld (conn : ℕ) (verificationId : String) : Bool :=
  s.txs.any fun t => decide (t.conn≠conn) &&
    t.rows.any fun r => decide (r.verificationId=verificationId)

/-- The newer of two rows, the first one if they are as old. -/
def newer (best : Option Verification) (r : Verification) : Option Verification :=
  match best with
  | none => some r
  | some b => if b.createdAt<r.createdAt then some r else some b

/-- The newest pending row without a provider identifier. -/
def latestPending (rows : List Verification) : Option Verification :=
  (rows.filter fun r => decide (r.status=.pending)&&decide (r.verificationId = "")).foldl
    newer none

/-- The row that records an outcome. -/
def outcome (d : Details) (now id createdAt : ℕ) : Verification where
  id := id
  verificationId := d.verificationId
  category := d.category
  status := if d.succeeded then .success else .failed
  expiresAt := if d.succeeded then some (now+d.ttl) else none
  createdAt := createdAt

/-- What a statement did. -/
inductive Result
  | blocked
  | failed
  | moved (t : Tx)

/-- The transaction with an outcome written. A failure of a category takes it back. -/
def recordOutcome (t : Tx) (d : Details) (id createdAt : ℕ) : Tx := {t with
    rows := [outcome d t.now id createdAt]
    phase := if !d.succeeded&&decide (d.category ≠ "") then .revokeRows none else .readCustomer}

/-- Write the outcome into the selected row or a new one. The update asks for the
identifier of the row only, so a row that was settled meanwhile is overwritten. -/
def placeOutcome (t : Tx) (d : Details) (target : Option Verification) : Result :=
  let id := (target.map Verification.id).getD t.fresh
  if rowHeld s t.conn id||verificationHeld s t.conn d.verificationId then .blocked
  else if (seen s t).any fun r => decide (r.verificationId=d.verificationId)&&decide (r.id≠id) then
    .failed
  else .moved (recordOutcome t d id ((target.map Verification.createdAt).getD t.now))

/-- Write new versions of rows. -/
def putRows (own copies : List Verification) : List Verification :=
  (own.filter fun o => !copies.any fun c => decide (c.id=o.id))++copies

/-- The transaction with the status changed of the rows that a predicate selects. -/
def setStatus (t : Tx) (p : Verification → Bool) (status : Status) (next : Phase) :
    Tx := {t with
    rows := putRows t.rows (((seen s t).filter p).map fun r => {r with status := status})
    phase := next}

/-- Change the status of these rows. -/
def updateStatus (t : Tx) (p : Verification → Bool) (status : Status)
    (next : Phase) : Result :=
  if ((seen s t).filter p).any fun r => rowHeld s t.conn r.id then .blocked
  else .moved (setStatus s t p status next)

/-- The row is verified and its category is taken back. -/
def isStruck (request : Request) (r : Verification) : Bool :=
  decide (r.status=.success)&&strikes request r.category

/-- The row is verified and has lapsed. -/
def isStale (now : ℕ) (r : Verification) : Bool :=
  decide (r.status=.success)&&r.expiresAt.any fun lapse => decide (lapse<now)

/-- Identifiers of the rows that a predicate selects. -/
def select (t : Tx) (p : Verification → Bool) : List ℕ :=
  ((seen s t).filter p).map Verification.id

/-- The row was selected and still satisfies the predicate. -/
def isPicked (ids : List ℕ) (p : Verification → Bool) (r : Verification) : Bool :=
  decide (r.id∈ids)&&p r

/-- Write the entries without the struck categories. Clearing skips a write that
removes nothing. -/
def stripEntries (t : Tx) (read : List VerificationEntry) : Result :=
  let kept := read.filter fun e => !strikes t.request e.category
  match t.request with
  | .clear _ =>
    if kept.length=read.length then .moved {t with phase := .readCustomer}
    else if customerHeld s t.conn then .blocked
    else .moved {t with entries := some kept,phase := .readCustomer}
  | _ =>
    if customerHeld s t.conn then .blocked
    else .moved {t with entries := some kept,phase := .readCustomer}

def statement (t : Tx) : Result :=
  match t.phase with
  | .insertPending =>
    .moved {t with rows := [⟨t.fresh, "", "",.pending,none,t.now⟩], phase := .finished}
  | .find d =>
    if d.verificationId = "" then .failed
    else match (seen s t).find? fun r => decide (r.verificationId=d.verificationId) with
      | some row =>
        if row.status≠.pending then .moved {t with phase := .finished}
        else if d.currentStep = "" then .failed
        else .moved {t with phase := .store d (some row)}
      | none => if d.currentStep = "" then .failed else .moved {t with phase := .store d none}
  | .store d existing =>
    .moved {t with phase := .place d (existing.or (latestPending (seen s t)))}
  | .place d target => placeOutcome s t d target
  | .readEntries =>
    let read := t.entries.getD s.entries
    match t.request with
    | .clear _ => .moved {t with phase := .revokeRows (some read)}
    | _ => .moved {t with phase := .strip read}
  | .revokeRows read =>
    .moved {t with phase := .revokeThese (select s t (isStruck t.request)) read}
  | .revokeThese ids none => updateStatus s t (isPicked ids (isStruck t.request)) .revoked .readEntries
  | .revokeThese ids (some read) =>
    updateStatus s t (isPicked ids (isStruck t.request)) .revoked (.strip read)
  | .strip read => stripEntries s t read
  | .sweepRows => .moved {t with phase := .expireThese (select s t (isStale t.now))}
  | .expireThese ids =>
    if (seen s t).any (isPicked ids (isStale t.now)) then
      updateStatus s t (isPicked ids (isStale t.now)) .expired .readCustomer
    else .moved {t with phase := .finished}
  | .readCustomer => .moved {t with phase := .readRows (t.entries.getD s.entries)}
  | .readRows read => .moved {t with phase := .write (recompute read (seen s t) t.now)}
  | .write new =>
    if customerHeld s t.conn then .blocked
    else .moved {t with entries := some new,active := some (categories new),phase := .finished}
  | .finished => .blocked

def firstPhase : Request → Phase
  | .start => .insertPending
  | .webhook d => .find d
  | .revoke _ => .revokeRows none
  | .clear _ => .readEntries
  | .sweep => .sweepRows
  | .status => .readCustomer

/-- One step of the store. -/
inductive Action
  | begin (conn : ℕ) (request : Request)
  | next (conn : ℕ)
  | commit (conn : ℕ)
  | abort (conn : ℕ)
  | tick (span : ℕ)

/-- What a step answered. -/
inductive Answer
  | done
  | blocked
  | failed
  | refused
  deriving DecidableEq

section
variable (s : Store)

/-- The open transaction of a connection. -/
def findTx (conn : ℕ) : Option Tx := s.txs.find? fun t => decide (t.conn=conn)

/-- Replace the open transaction of a connection. -/
def putTx (t : Tx) : Store :=
  {s with txs := updateWhere (fun x => decide (x.conn=t.conn)) (fun _ => t) s.txs}

def dropTx (conn : ℕ) : Store :=
  {s with txs := deleteWhere (fun t => decide (t.conn=conn)) s.txs}

/-- Open a transaction. -/
def beginTx (conn : ℕ) (request : Request) : Store := {s with
    txs := s.txs++[⟨conn,request,s.clock,s.nextId,none,[],none,none,firstPhase request⟩]
    nextId := s.nextId+1}

/-- A transaction takes its time from its first statement. -/
def started (conn : ℕ) : Store := {s with
    txs := updateWhere (fun t => decide (t.conn=conn)&&t.version.isNone)
      (fun t => {t with now := s.clock,version := some s.version}) s.txs}

/-- Run the next statement. -/
def runStatement (t : Tx) : Answer×Store :=
  match statement s t with
  | .blocked => (.blocked,s)
  | .failed => (.failed,dropTx s t.conn)
  | .moved t' => (.done,putTx s t')

/-- Make the writes of a transaction visible. -/
def commitTx (t : Tx) : Store := {dropTx s t.conn with
    rows := seen s t
    entries := t.entries.getD s.entries
    active := t.active.getD s.active
    version := if t.entries.isSome then s.version+1 else s.version
    imported :=
      if t.entries.isSome then s.imported.filter fun e => !strikes t.request e.category
      else s.imported}

/-- Perform one step. -/
def step : Action → Answer×Store
  | .begin conn request =>
    if (findTx s conn).isSome then (.refused,s) else (.done,beginTx s conn request)
  | .next conn =>
    match findTx (started s conn) conn with
    | none => (.refused,s)
    | some t => runStatement (started s conn) t
  | .commit conn =>
    match findTx s conn with
    | none => (.refused,s)
    | some t => if t.phase=.finished then (.done,commitTx s t) else (.refused,s)
  | .abort conn => (.done,dropTx s conn)
  | .tick span => (.done,{s with clock := s.clock+span})

end

end SellRight.VerificationService
