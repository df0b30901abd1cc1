import SellRight.RowTable
import SellRight.RunHistory

/-!
# The admin hub

A browser's hub session keeps admin sessions of other servers. An enrolment
state is spent on the callback, the code is redeemed over the network, and the
token is sealed in a slot of the hub session. Database statements and
transactions are atomic; what happens between them is up to the other requests
and to the targets.
-/

namespace SellRight.AdminHub

open RowTable RunHistory

/-- Configured server an account may be enrolled on. -/
structure HubTarget where
  (id origin : String)
  deriving DecidableEq

/-- Row of a hub session. -/
structure HubSession where
  id : ℕ
  expiresAt : ℤ

/-- Row of an enrolment that was started. -/
structure HubEnrolment where
  (stateHash hubSessionId : ℕ)
  targetId : String
  expiresAt : ℤ

/-- Row a sealed token is bound to. -/
structure SlotAad where
  (slotId hubSessionId : ℕ)
  targetId : String
  deriving DecidableEq

/-- Token sealed for one row. -/
structure Sealed where
  aad : SlotAad
  token : ℕ

/-- Seal a token for a row. -/
def sealFor (token : ℕ) (aad : SlotAad) : Sealed := ⟨aad,token⟩

/-- Open a sealed token: only its own row opens it. -/
def openFor (tokenSealed : Sealed) (aad : SlotAad) : Option ℕ :=
  if tokenSealed.aad=aad then some tokenSealed.token else none

/-- Row of a saved account. -/
structure HubAccountSlot where
  (id hubSessionId : ℕ)
  (targetId adminId : String)
  tokenSealed : Sealed
  expiresAt : ℤ

/-- Row a slot's token is bound to. -/
def HubAccountSlot.aad (slot : HubAccountSlot) : SlotAad :=
  ⟨slot.id,slot.hubSessionId,slot.targetId⟩

/-- Token a target is asked to revoke. -/
structure Revocation where
  target : HubTarget
  token : ℕ
  deriving DecidableEq

/-- Answer of a target that accepted a code. -/
structure TokenReply where
  (issuer adminId : String)
  expiresInSeconds : ℤ

/-- Lifetime of a hub session in milliseconds. -/
def hubSessionTtlMs : ℤ := 30*24*60*60*1000

/-- Lifetime of an enrolment in milliseconds. -/
def hubEnrolTtlMs : ℤ := 10*60*1000

/-- Where a request is between two of its steps. -/
inductive Work where
  | resolved (hubSessionId : ℕ)
  /-- The enrolment was spent and the code was sent to the target. -/
  | redeeming (hubSessionId : ℕ) (target : HubTarget)
  | saving (hubSessionId : ℕ) (target : HubTarget) (token : ℕ) (reply : TokenReply)
  | ending (hubSessionId : ℕ) (rows : List HubAccountSlot)
  | revoking (revocations : List Revocation)
  | calling (slotId token : ℕ)
  /-- The target answered the call with 401. -/
  | rejected (slotId token : ℕ)

/-- An admin call that was made. -/
structure Call where
  hubSessionId : ℕ
  target : HubTarget
  token : ℕ

structure Redemption where
  hubSessionId : ℕ
  target : HubTarget
  token : ℕ
  deriving DecidableEq

/-- Rows of the hub, its running requests and what went over the network. -/
structure Store where
  sessions : List HubSession
  enrolments : List HubEnrolment
  slots : List HubAccountSlot
  requests : ℕ → Option Work
  spent : List ℕ
  redeemed : List Redemption
  sent : List Revocation
  calls : List Call
  rejected : List ℕ
  /-- Tokens whose slot was dropped after a rejected call. -/
  dropped : List ℕ
  nextId : ℕ

/-- Nothing happened yet. -/
def Store.empty : Store := ⟨[],[],[],fun _ => none,[],[],[],[],[],[],0⟩

/-- Steps of the hub's requests. -/
inductive Action where
  | createHubSession (now : ℤ)
  | resolveHubSession (conn hubSessionId : ℕ) (now : ℤ)
  | startEnrolment (conn : ℕ) (targetId : String) (now : ℤ)
  /-- Spend an enrolment on the callback and send the code. -/
  | completeEnrolment (conn : ℕ) (targetId : String) (valid : Bool) (state : ℕ)
      (iss : Option String) (now : ℤ)
  /-- The target answers the code, or fails to. -/
  | reply (conn : ℕ) (reply : Option TokenReply)
  | save (conn : ℕ) (now : ℤ)
  | revoke (conn : ℕ)
  | removeSlot (conn slotId : ℕ)
  | signOut (conn : ℕ)
  | endHubSession (conn : ℕ)
  /-- Send an admin call for a saved account. -/
  | proxyToTarget (conn slotId : ℕ) (now : ℤ)
  /-- The target answers the call, with 401 or otherwise. -/
  | answer (conn : ℕ) (unauthorized : Bool)
  /-- Delete the saved account of a rejected call. -/
  | dropSlot (conn : ℕ)

/-- Answers of a step. -/
inductive Answer where
  | continues
  | created (hubSessionId : ℕ)
  | started (state : ℕ)
  | noSession
  | unknownTarget
  | badRequest
  | unknownState
  /-- The code or the token is of another server. -/
  | issuerMismatch
  | redeemFailed
  | saved (slotId : ℕ)
  | notFound
  /-- The saved account needs a new sign-in. -/
  | reauth
  | done
  | failed
  | idle

variable (s : Store)

/-- Move a request, or end it. -/
def Store.move (conn : ℕ) (work : Option Work) : Store :=
  {s with requests := Function.update s.requests conn work}

variable (targets : List HubTarget)

def findTarget (id : String) : Option HubTarget :=
  targets.find? fun t => decide (t.id=id)

/-- Revocation of a slot's token, where its target is configured and its seal
opens. -/
def revokeSlotToken (slot : HubAccountSlot) : Option Revocation :=
  match findTarget targets slot.targetId, openFor slot.tokenSealed slot.aad with
  | some target, some token => some ⟨target,token⟩
  | _, _ => none

/-- Delete hub sessions, with the rows that refer to them. -/
def Store.deleteSessions (p : HubSession → Bool) : Store :=
  let gone := (s.sessions.filter p).map HubSession.id
  {s with
    sessions := deleteWhere p s.sessions
    enrolments := deleteWhere (fun e => decide (e.hubSessionId∈gone)) s.enrolments
    slots := deleteWhere (fun slot => decide (slot.hubSessionId∈gone)) s.slots}

/-- Start a hub session. -/
def createHubSession (now : ℤ) : Answer×Store :=
  let cleaned := s.deleteSessions fun x => decide (x.expiresAt<now)
  (.created s.nextId,{cleaned with
      sessions := cleaned.sessions++[⟨s.nextId,now+hubSessionTtlMs⟩]
      nextId := s.nextId+1})

/-- Resolve the hub session of a request. -/
def resolveHubSession (conn hubSessionId : ℕ) (now : ℤ) : Answer×Store :=
  if s.sessions.any fun x => decide (x.id=hubSessionId∧now<x.expiresAt) then
    (.continues,s.move conn (some (.resolved hubSessionId)))
  else (.noSession,s)

/-- The hub session row exists. -/
def Store.hasSession (hubSessionId : ℕ) : Prop :=
  hubSessionId∈s.sessions.map HubSession.id

instance (s : Store) (hubSessionId : ℕ) : Decidable (s.hasSession hubSessionId) :=
  inferInstanceAs (Decidable (hubSessionId∈s.sessions.map HubSession.id))

/-- Start an enrolment for a resolved hub session. -/
def startEnrolment (s : Store) (conn hubSessionId : ℕ)
    (targetId : String) (now : ℤ) : Answer×Store :=
  let s := s.move conn none
  match findTarget targets targetId with
  | none => (.unknownTarget,s)
  | some _ =>
    if s.hasSession hubSessionId then
      (.started s.nextId,{s with
          enrolments := deleteWhere (fun e => decide (e.expiresAt<now)) s.enrolments ++
            [⟨s.nextId,hubSessionId,targetId,now+hubEnrolTtlMs⟩]
          nextId := s.nextId+1})
    else (.failed,s)

/-- The enrolment is the one the callback names. -/
def matchesEnrolment (hubSessionId : ℕ) (targetId : String) (state : ℕ) (now : ℤ)
    (e : HubEnrolment) : Bool :=
  decide (e.stateHash=state∧e.hubSessionId=hubSessionId∧e.targetId=targetId∧now<e.expiresAt)

/-- Spend an enrolment on the callback. -/
def completeEnrolment (s : Store) (conn hubSessionId : ℕ)
    (targetId : String) (valid : Bool) (state : ℕ) (iss : Option String) (now : ℤ) :
    Answer×Store :=
  match findTarget targets targetId with
  | none => (.unknownTarget,s.move conn none)
  | some target =>
    if valid=false then (.badRequest,s.move conn none)
    else if s.enrolments.any (matchesEnrolment hubSessionId targetId state now)=false then
      (.unknownState,s.move conn none)
    else
      let spent : Store := {s with
        enrolments := deleteWhere (matchesEnrolment hubSessionId targetId state now) s.enrolments
        spent := s.spent++[state]}
      if iss≠some target.origin then (.issuerMismatch,spent.move conn none)
      else (.continues,spent.move conn (some (.redeeming hubSessionId target)))

/-- Take the target's answer to a code. -/
def takeReply (conn hubSessionId : ℕ) (target : HubTarget) :
    Option TokenReply → Answer×Store
  | none => (.redeemFailed,s.move conn none)
  | some reply =>
    let redeemed : Store := {s with
      redeemed := s.redeemed++[⟨hubSessionId,target,s.nextId⟩]
      nextId := s.nextId+1}
    if reply.issuer≠target.origin then
      (.issuerMismatch,redeemed.move conn (some (.revoking [⟨target,s.nextId⟩])))
    else (.continues,redeemed.move conn (some (.saving hubSessionId target s.nextId reply)))

def identity (hubSessionId : ℕ) (targetId adminId : String) (slot : HubAccountSlot) : Bool :=
  decide (slot.hubSessionId=hubSessionId∧slot.targetId=targetId∧slot.adminId=adminId)

/-- Put a redeemed token over the one of a slot. -/
def reenrol (token : ℕ) (expiresAt : ℤ) (slot : HubAccountSlot) : HubAccountSlot :=
  {slot with tokenSealed := sealFor token slot.aad,expiresAt := expiresAt}

/-- Save the redeemed account in its slot. -/
def saveSlot (s : Store) (conn hubSessionId : ℕ) (target : HubTarget)
    (token : ℕ) (reply : TokenReply) (now : ℤ) : Answer×Store :=
  let expiresAt := now+reply.expiresInSeconds*1000
  match s.slots.find? (identity hubSessionId target.id reply.adminId) with
  | some old =>
    let updated : Store := {s with
      slots := updateWhere (fun slot => decide (slot.id=old.id)) (reenrol token expiresAt) s.slots}
    (.saved old.id,updated.move conn (some (.revoking (revokeSlotToken targets old).toList)))
  | none =>
    if s.hasSession hubSessionId then
      let inserted : Store := {s with
        slots := s.slots++[⟨s.nextId,hubSessionId,target.id,reply.adminId,
          sealFor token ⟨s.nextId,hubSessionId,target.id⟩,expiresAt⟩]
        nextId := s.nextId+1}
      (.saved s.nextId,inserted.move conn none)
    else (.failed,s.move conn none)

/-- Delete one saved account of a hub session. -/
def removeSlot (s : Store) (conn hubSessionId slotId : ℕ) :
    Answer×Store :=
  match s.slots.find? fun slot =>
    decide (slot.id=slotId∧slot.hubSessionId=hubSessionId) with
  | none => (.notFound,s.move conn none)
  | some row =>
    let deleted : Store := {s with
      slots := deleteWhere (fun slot =>
        decide (slot.id=slotId∧slot.hubSessionId=hubSessionId)) s.slots}
    (.done,deleted.move conn (some (.revoking (revokeSlotToken targets row).toList)))

/-- Delete the saved accounts of a hub session that signs out. -/
def signOut (conn hubSessionId : ℕ) : Answer×Store :=
  let deleted : Store := {s with
    slots := deleteWhere (fun slot => decide (slot.hubSessionId=hubSessionId)) s.slots}
  (.continues,deleted.move conn (some (.ending hubSessionId
    (s.slots.filter fun slot => decide (slot.hubSessionId=hubSessionId)))))

/-- Delete a hub session that signs out. -/
def endHubSession (s : Store) (conn hubSessionId : ℕ)
    (rows : List HubAccountSlot) : Answer×Store :=
  (.done,(s.deleteSessions fun x => decide (x.id=hubSessionId)).move conn
    (some (.revoking (rows.filterMap (revokeSlotToken targets)))))

/-- Send an admin call for a saved account. -/
def proxyToTarget (s : Store) (conn hubSessionId slotId : ℕ)
    (now : ℤ) : Answer×Store :=
  match s.slots.find? fun slot => decide (slot.id=slotId∧slot.hubSessionId=hubSessionId ∧
    now<slot.expiresAt) with
  | none => (.notFound,s.move conn none)
  | some slot =>
    match findTarget targets slot.targetId, openFor slot.tokenSealed slot.aad with
    | none, _ => (.notFound,s.move conn none)
    | some _, none => (.reauth,s.move conn none)
    | some target, some token =>
      let called : Store := {s with calls := s.calls++[⟨hubSessionId,target,token⟩]}
      (.continues,called.move conn (some (.calling slot.id token)))

/-- Delete the saved account of a rejected call. -/
def dropSlot (conn slotId : ℕ) : Answer×Store :=
  let deleted : Store := {s with
    slots := deleteWhere (fun slot => decide (slot.id=slotId)) s.slots
    dropped := s.dropped++(s.slots.filter fun slot => decide (slot.id=slotId)).map
      fun slot => slot.tokenSealed.token}
  (.reauth,deleted.move conn none)

/-- Connection of a step, if it is one of a request. -/
def Action.conn : Action → Option ℕ
  | .createHubSession _ => none
  | .resolveHubSession conn _ _ => some conn
  | .startEnrolment conn _ _ => some conn
  | .completeEnrolment conn _ _ _ _ _ => some conn
  | .reply conn _ => some conn
  | .save conn _ => some conn
  | .revoke conn => some conn
  | .removeSlot conn _ => some conn
  | .signOut conn => some conn
  | .endHubSession conn => some conn
  | .proxyToTarget conn _ _ => some conn
  | .answer conn _ => some conn
  | .dropSlot conn => some conn

/-- Carry out one step of a running request. -/
def proceed (s : Store) (conn : ℕ) : Work → Action → Answer×Store
  | .resolved hubSessionId, .startEnrolment _ targetId now =>
    startEnrolment targets s conn hubSessionId targetId now
  | .resolved hubSessionId, .completeEnrolment _ targetId valid state iss now =>
    completeEnrolment targets s conn hubSessionId targetId valid state iss now
  | .resolved hubSessionId, .removeSlot _ slotId => removeSlot targets s conn hubSessionId slotId
  | .resolved hubSessionId, .signOut _ => signOut s conn hubSessionId
  | .resolved hubSessionId, .proxyToTarget _ slotId now =>
    proxyToTarget targets s conn hubSessionId slotId now
  | .redeeming hubSessionId target, .reply _ reply => takeReply s conn hubSessionId target reply
  | .saving hubSessionId target token reply, .save _ now =>
    saveSlot targets s conn hubSessionId target token reply now
  | .ending hubSessionId rows, .endHubSession _ => endHubSession targets s conn hubSessionId rows
  | .revoking revocations, .revoke _ =>
    (.done,Store.move {s with sent := s.sent++revocations} conn none)
  | .calling slotId token, .answer _ unauthorized =>
    if unauthorized then
      (.continues,Store.move {s with rejected := s.rejected++[token]} conn
        (some (.rejected slotId token)))
    else (.done,s.move conn none)
  | .rejected slotId _, .dropSlot _ => dropSlot s conn slotId
  | _, _ => (.idle,s)

/-- Carry out one step. -/
def step (s : Store) (a : Action) : Answer×Store :=
  match a with
  | .createHubSession now => createHubSession s now
  | .resolveHubSession conn hubSessionId now =>
    match s.requests conn with
    | some _ => (.idle,s)
    | none => resolveHubSession s conn hubSessionId now
  | a =>
    match a.conn with
    | none => (.idle,s)
    | some conn =>
      match s.requests conn with
      | none => (.idle,s)
      | some work => proceed targets s conn work a

end SellRight.AdminHub
