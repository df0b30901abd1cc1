import SellRight.RowTable
import SellRight.RunHistory

/-!
# Leases of the scheduler's leader-locked jobs

A pass claims the lease row of its job, renews it on a timer and deletes it
when done; every store transaction of the pass checks the row right before its
commit and keeps it locked until then. Messages between a process and the
database are explicit: a statement may arrive late or never, and its answer
may be lost. The clock of the database is a state field and the clock of a
process is read from outside.
-/

namespace SellRight.LeaderLease

open RowTable RunHistory

/-- Milliseconds after which a holder that stops renewing loses the lease. -/
def leaseTtlMs : ℤ := 60000

/-- High half of the advisory lock keys of the jobs. -/
def keyNamespace : ℕ := 0x53525350 <<< 32

/-- The registry of leader-locked jobs with their numbers. -/
def jobKeys : List (String×ℕ) :=
  [("release-stale",1),("auto-deliver",2),("cart-maintenance",3),("webhooks",4),
    ("webhook-reaper",5),("emails",6),("push",7),("listmonk-sync",8),
    ("processed-event-reaper",9),("gateway-events",10),("sheerid-expiry",11),
    ("restock-notify",12),("catalog-manifest",13),("rate-limit-reaper",14),
    ("catalog-manifest-drain",15),("gateway-recovery",20),("birthday-bonus",30),
    ("pending-effects",40),("reservation-release-sweep",41),("passkey-prune",42),
    ("purge-cancelled",43),("openai-capi",44),("trash-abandoned",45)]

/-- Whether a job was registered by a plugin. -/
def isPluginJob (job : String) : Bool := "plugin:".toList.isPrefixOf job.toList

/-- Advisory lock key used before leases, as text and whether it is hashed. -/
structure LegacyKey where
  key : String
  /-- The key is the hash of the text, not its number. -/
  hashed : Bool
  deriving DecidableEq

/-- Advisory lock key a job and scope used before leases. -/
def legacyAdvisoryKey (job : String) (scope : Option String) : LegacyKey :=
  let base :=
    if isPluginJob job then toString keyNamespace ++ ":" ++ job
    else ((jobKeys.lookup job).map fun number => toString (keyNamespace ||| number)).getD
      "undefined"
  match scope with
  | none => ⟨base,isPluginJob job⟩
  | some scope => ⟨base ++ ":" ++ scope,true⟩

/-- Key of the lease row of a job and scope. -/
def leaseName (job : String) : Option String → String
  | none => job
  | some scope => job ++ ":" ++ scope

/-- Row of the lease table. -/
structure LeaseRow where
  (name token holder : String)
  (acquiredAt expiresAt : ℤ)

/-- A pass that won its lease. -/
structure LeaseFence where
  (name token : String)
  /-- The pass learned that the lease is gone. -/
  lost : Bool
  released : Bool
  (ttlMs renewedAt : ℤ)

/-- An open store transaction. -/
structure StoreTransaction where
  id : ℕ
  /-- Tokens of the passes in scope when the transaction began, outermost first. -/
  fences : List String
  /-- Tokens still to check before the commit. -/
  pending : List String
  /-- Names and tokens of the lease rows locked by the checks made. -/
  locks : List (String×String)
  deriving DecidableEq

/-- The lease table, the processes' passes and the messages in flight. -/
structure Leases where
  clock : ℤ
  rows : List LeaseRow
  passes : List LeaseFence
  /-- Store transactions neither committed nor rolled back. -/
  transactions : List StoreTransaction
  renewals : List String
  /-- Tokens and row counts of renewals not yet answered to the process. -/
  answers : List (String×Bool)
  releases : List String

/-- A lease table without rows. -/
def openingLeases (clock : ℤ) : Leases := ⟨clock,[],[],[],[],[],[]⟩

/-- Claiming statement of a pass. -/
structure Claim where
  job : String
  scope : Option String
  (token holder : String)
  (ttlMs startedAt : ℤ)
  /-- Advisory locks held by processes that know no leases. -/
  legacyHeld : List LegacyKey
  /-- Local time at which the answer arrived, or nothing if it was lost. -/
  answeredAt : Option ℤ

/-- One atomic step of a process or of the database. -/
inductive Action where
  | tick (now : ℤ)
  | claim (request : Claim)
  | renewTimer (token : String) (localNow : ℤ)
  /-- A renewal takes effect: its start time and the time its condition read. -/
  | renew (token : String) (startedAt readAt : ℤ)
  | renewAnswer (token : String) (updated : Bool) (localNow : ℤ)
  | release (token : String)
  | releaseRow (token : String)
  /-- A store transaction begins inside the given passes. -/
  | start (id : ℕ) (fences : List String)
  /-- A store transaction checks its next lease, reading the given time. -/
  | assertHeld (id : ℕ) (readAt : ℤ)
  | commit (id : ℕ)
  /-- A store transaction is rolled back for another reason. -/
  | abort (id : ℕ)

/-- What a step did. -/
inductive Outcome where
  | done
  /-- The statement waits for a lock, or the step is not possible now. -/
  | waits
  | claimed (name token : String)
  | refused
  | unknownJob
  | committed (tx : StoreTransaction)
  /-- A lease of the transaction is lost and it was rolled back. -/
  | leaseLost (name : String)
  deriving DecidableEq

/-- Whether an open transaction holds the lock of a lease row. -/
def isLocked (s : Leases) (name : String) : Bool :=
  s.transactions.any fun tx => tx.locks.any fun lock => decide (lock.1=name)

/-- Row written by a claim. -/
def claimedRow (request : Claim) : LeaseRow :=
  ⟨leaseName request.job request.scope,request.token,request.holder,request.startedAt,
    request.startedAt+request.ttlMs⟩

/-- A claim whose answer arrived starts a pass. -/
def enterPass (request : Claim) (passes : List LeaseFence) : List LeaseFence :=
  match request.answeredAt with
  | none => passes
  | some localNow => passes++[⟨leaseName request.job request.scope,request.token,false,false,
      request.ttlMs,localNow⟩]

/-- Claim a lease: insert its row, or take over an expired one once nobody
holds its lock. -/
def withLeaderLock (s : Leases) (request : Claim) : Outcome×Leases :=
  let name := leaseName request.job request.scope
  if !isPluginJob request.job&&(jobKeys.lookup request.job).isNone then (.unknownJob,s)
  else if legacyAdvisoryKey request.job request.scope∈request.legacyHeld then (.refused,s)
  else match s.rows.find? fun row => decide (row.name=name) with
    | none => (.claimed name request.token,{s with
          rows := s.rows++[claimedRow request]
          passes := enterPass request s.passes})
    | some row =>
      if isLocked s name then (.waits,s)
      else if row.expiresAt≤request.startedAt then (.claimed name request.token,{s with
          rows := updateWhere (fun other => decide (other.name=name))
            (fun _ => claimedRow request) s.rows
          passes := enterPass request s.passes})
      else (.refused,s)

/-- Mark a pass as having lost its lease, unless it gave it back. -/
def markLost (token : String) (passes : List LeaseFence) : List LeaseFence :=
  updateWhere (fun pass => decide (pass.token=token) && !pass.lost && !pass.released)
    (fun pass => {pass with lost := true}) passes

section
variable (s : Leases)

section
variable (token : String)

/-- The renewal timer: a term without a renewal marks the lease lost, and one
more renewal is sent in any case. -/
def renewTimer (localNow : ℤ) : Outcome×Leases :=
  match s.passes.find? fun pass => decide (pass.token=token) && !pass.released with
  | none => (.waits,s)
  | some pass => (.done,{s with
        passes := if pass.ttlMs<localNow-pass.renewedAt then markLost token s.passes
          else s.passes
        renewals := token::s.renewals})

/-- A sent renewal extends the row of its token if that has not expired. -/
def renewRow (startedAt readAt : ℤ) : Outcome×Leases :=
  match s.passes.find? fun pass => decide (pass.token=token) with
  | none => (.waits,s)
  | some pass =>
    if token∈s.renewals then
      let matched : LeaseRow → Bool := fun row =>
        decide (row.name=pass.name∧row.token=token∧readAt<row.expiresAt)
      if s.rows.any matched then
        if isLocked s pass.name then (.waits,s)
        else (.done,{s with
            rows := updateWhere matched
              (fun row => {row with expiresAt := startedAt+pass.ttlMs}) s.rows
            renewals := s.renewals.erase token
            answers := (token,true)::s.answers})
      else (.done,{s with
          renewals := s.renewals.erase token
          answers := (token,false)::s.answers})
    else (.waits,s)

/-- A process hears how its renewal ended. -/
def renewAnswer (updated : Bool) (localNow : ℤ) : Outcome×Leases :=
  if (token,updated)∈s.answers then (.done,{s with
      passes :=
        if updated then updateWhere (fun pass => decide (pass.token=token))
          (fun pass => {pass with renewedAt := localNow}) s.passes
        else markLost token s.passes
      answers := s.answers.erase (token,updated)})
  else (.waits,s)

/-- The work of a pass is over: it is marked first and its row deleted after. -/
def releasePass : Outcome×Leases :=
  if s.passes.any fun pass => decide (pass.token=token) && !pass.released then (.done,{s with
      passes := updateWhere (fun pass => decide (pass.token=token))
        (fun pass => {pass with released := true}) s.passes
      releases := token::s.releases})
  else (.waits,s)

/-- A sent release deletes the row of its name and token. -/
def releaseRow : Outcome×Leases :=
  match s.passes.find? fun pass => decide (pass.token=token) with
  | none => (.waits,s)
  | some pass =>
    if token∈s.releases then
      let matched : LeaseRow → Bool := fun row => decide (row.name=pass.name∧row.token=token)
      if s.rows.any matched&&isLocked s pass.name then (.waits,s)
      else (.done,{s with rows := deleteWhere matched s.rows,releases := s.releases.erase token})
    else (.waits,s)

end

/-- Open a store transaction that must check the passes it runs in. -/
def startTransaction (id : ℕ) (fences : List String) : Leases :=
  {s with transactions := s.transactions++[⟨id,fences,fences,[]⟩]}

/-- Roll a transaction back, giving up its locks. -/
def rollback (id : ℕ) : Leases :=
  {s with transactions := deleteWhere (fun tx => decide (tx.id=id)) s.transactions}

/-- Replace an open transaction. -/
def storeTransaction (tx : StoreTransaction) : Leases := {s with
    transactions := updateWhere (fun other => decide (other.id=tx.id)) (fun _ => tx) s.transactions}

/-- One check of a store transaction about to commit. A lost lease refuses the
commit, a lease given back is passed over, and any other must have its row,
which stays locked. -/
def assertLeasesHeld (id : ℕ) (readAt : ℤ) : Outcome×Leases :=
  match s.transactions.find? fun tx => decide (tx.id=id) with
  | none => (.waits,s)
  | some tx =>
    match tx.pending with
    | [] => (.waits,s)
    | token::rest =>
      match s.passes.find? fun pass => decide (pass.token=token) with
      | none => (.waits,s)
      | some pass =>
        if pass.lost then (.leaseLost pass.name,rollback s id)
        else if pass.released then (.done,storeTransaction s {tx with pending := rest})
        else if s.rows.any fun row => decide (row.name=pass.name∧row.token=token ∧
            readAt<row.expiresAt) then
          (.done,storeTransaction s {tx with pending := rest,locks := (pass.name,token)::tx.locks})
        else (.leaseLost pass.name,{rollback s id with
            passes := updateWhere (fun other => decide (other.token=token))
              (fun other => {other with lost := true}) s.passes})

/-- A store transaction commits once all its leases were checked. -/
def commitStore (id : ℕ) : Outcome×Leases :=
  match s.transactions.find? fun tx => decide (tx.id=id) with
  | none => (.waits,s)
  | some tx => if tx.pending=[] then (.committed tx,rollback s id) else (.waits,s)

/-- One step of a process or of the database. -/
def step : Action → Outcome×Leases
  | .tick now => (.done,{s with clock := now})
  | .claim request => withLeaderLock s request
  | .renewTimer token localNow => renewTimer s token localNow
  | .renew token startedAt readAt => renewRow s token startedAt readAt
  | .renewAnswer token updated localNow => renewAnswer s token updated localNow
  | .release token => releasePass s token
  | .releaseRow token => releaseRow s token
  | .start id fences => (.done,startTransaction s id fences)
  | .assertHeld id readAt => assertLeasesHeld s id readAt
  | .commit id => commitStore s id
  | .abort id => (.done,rollback s id)

end

/-- A history of the lease table. -/
abbrev LeaseHistory := List (Event Leases Action Outcome)

/-- Token drawn by a claiming step. -/
def drawnToken : Action → Option String
  | .claim request => some request.token
  | _ => none

/-- Conditions on the next step: the clock of the database does not run back,
no statement reads a time to come, every claim draws a new token, and a
transaction is new and runs inside passes that were claimed. -/
def Possible (h : LeaseHistory) (s : Leases) : Action → Prop
  | .tick now => s.clock≤now
  | .claim request => request.startedAt ≤ s.clock∧∀ e∈h, drawnToken e.action≠some request.token
  | .renew _ startedAt readAt => startedAt≤readAt∧readAt ≤ s.clock
  | .start id fences => (∀ tx∈s.transactions, tx.id≠id) ∧
      ∀ token∈fences, ∃ pass∈s.passes, pass.token=token
  | .assertHeld _ readAt => readAt ≤ s.clock
  | _ => True

instance (h : LeaseHistory) (s : Leases) (a : Action) : Decidable (Possible h s a) :=
  match a with
  | .tick now => inferInstanceAs (Decidable (s.clock≤now))
  | .claim request => inferInstanceAs (Decidable (request.startedAt ≤ s.clock ∧
      ∀ e∈h, drawnToken e.action≠some request.token))
  | .renew _ startedAt readAt => inferInstanceAs (Decidable (startedAt≤readAt∧readAt ≤ s.clock))
  | .start id fences => inferInstanceAs (Decidable ((∀ tx∈s.transactions, tx.id≠id) ∧
      ∀ token∈fences, ∃ pass∈s.passes, pass.token=token))
  | .assertHeld _ readAt => inferInstanceAs (Decidable (readAt ≤ s.clock))
  | .renewTimer _ _ | .renewAnswer _ _ _ | .release _ | .releaseRow _ | .commit _ | .abort _ =>
    inferInstanceAs (Decidable True)

end SellRight.LeaderLease
