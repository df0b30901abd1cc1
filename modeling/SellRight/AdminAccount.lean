import SellRight.RowTable

/-!
# The credentials and sessions of one human admin

The admin row, the passkeys, the recovery codes, the sessions and the short-lived
rows of the sign-in journey. Random tokens and row ids are drawn from one counter.
What a session proved when it was created is kept beside it and read by no
operation.
-/

namespace SellRight.AdminAccount

open RowTable

/-- Lifetimes in milliseconds. -/
def loginChallengeTtl : ℕ := 5*60*1000

/-- Lifetime of an e-mailed reset link. -/
def passwordResetTtl : ℕ := 30*60*1000

/-- Lifetime of a passkey ceremony. -/
def challengeTtl : ℕ := 5*60*1000

/-- Lifetime of a handoff code. -/
def handoffCodeTtl : ℕ := 60*1000

/-- How recently the issuer of a handoff code must have signed in or stepped up. -/
def handoffFreshAuth : ℕ := 10*60*1000

/-- Age up to which a step-up counts. -/
def stepUpWindow : ℕ := 5*60*1000

/-- Age up to which a session may enrol the first second factor without a step-up. -/
def freshEnroll : ℕ := 15*60*1000

/-- Code checks that one login challenge admits. -/
def loginChallengeMaxAttempts : ℕ := 5

/-- Passkeys that one admin may hold. -/
def maxPasskeysPerOwner : ℕ := 10

/-- A registered hub client. -/
structure HandoffClient where
  (id redirectUri secretSha256 : String)

/-- Configuration and cryptography of the installation. -/
structure World where
  (sha256 s256 : String → String)
  /-- Stored form of a new authenticator secret. -/
  sealTotp : String → String
  openTotp : String → String
  /-- Time step around the given time whose code the text is. -/
  matchTotpStep : String → String → ℕ → Option ℕ
  (sessionTtl idle : ℕ)
  issuer : Bool
  clients : List HandoffClient

/-- Receipt of a recovery code spent before the transaction that relies on it. -/
structure Receipt where
  (id usedAt : ℕ)
  deriving DecidableEq

/-- Code typed by the admin, trimmed. -/
inductive Code
  | digits (text : String)
  /-- Sixteen letters of the recovery alphabet, as their digest. -/
  | recovery (hash : String)
  | other

/-- What created a session. -/
inductive Proof
  | password (hash : String) (epoch : Option ℕ)
  | passkey (id epoch : ℕ)
  | handoff (session epoch : ℕ)
  deriving DecidableEq

/-- A session of the admin. The token names the row. -/
structure Session where
  (token createdAt expiresAt : ℕ)
  (lastSeenAt stepUpAt stepUpEpoch : Option ℕ)
  handoffClientId : Option String
  /-- What created it. Read by no operation. -/
  proof : Proof
  /-- Password of the account when it was created. Read by no operation. -/
  passwordVersion : ℕ

/-- A registered passkey. -/
structure Passkey where
  id : ℕ
  credentialId : String
  (counter epoch : ℕ)

/-- A one-time recovery code. -/
structure RecoveryCode where
  id : ℕ
  codeHash : String
  usedAt : Option ℕ

/-- Kinds of sign-in tokens. -/
inductive Kind
  | loginTwoFactor
  | passwordReset
  deriving DecidableEq

/-- A stored sign-in token. -/
structure AuthChallenge where
  token : ℕ
  kind : Kind
  digest : String
  /-- Password hash it was issued for. Read by no operation. -/
  hash : String
  (epoch attempts expiresAt : ℕ)
  consumed : Bool

/-- Kinds of passkey ceremonies. -/
inductive Ceremony
  | register
  | login
  | stepUp
  deriving DecidableEq

/-- A stored passkey challenge. -/
structure PasskeyChallenge where
  challenge : ℕ
  kind : Ceremony
  session : Option ℕ
  nonce : ℕ
  epoch : Option ℕ
  expiresAt : ℕ
  consumed : Bool

/-- A stored handoff code. -/
structure HandoffCode where
  code : ℕ
  (clientId redirectUri codeChallenge : String)
  (sessionId epoch expiresAt : ℕ)
  deriving DecidableEq

/-- Everything stored for the admin. -/
structure Account where
  passwordHash : String
  totp : Option String
  securityEpoch : ℕ
  passkeyReviewRequired : Bool
  passkeys : List Passkey
  recoveryCodes : List RecoveryCode
  usedSteps : List ℕ
  sessions : List Session
  authChallenges : List AuthChallenge
  passkeyChallenges : List PasskeyChallenge
  (handoffCodes takenCodes : List HandoffCode)
  /-- Counter behind random tokens and row ids. -/
  next : ℕ
  /-- How often the password was replaced. Read by no operation. -/
  passwordVersion : ℕ

/-- What an operation answered. -/
inductive Answer
  | refused
  | done
  | invalidCode
  | verified (receipt : Option Receipt)
  | issued (token : ℕ)
  | signedIn (token : ℕ)
  | enrolled (id : ℕ)
  | revoked (n : ℕ)
  deriving DecidableEq

/-- Digest of a password hash as a sign-in token stores it. -/
def credentialDigest (w : World) (passwordHash : String) : String := w.sha256 passwordHash

/-- The stored form of a secret is sealed. -/
def isSealedTotpSecret (stored : String) : Bool := "enc1:".toList.isPrefixOf stored.toList

/-- A write to the secret column is a new secret. Sealing in place is not. -/
def totpChanged : Option String → Option String → Bool
  | none, none => false
  | some old, some new => old != new&&isSealedTotpSecret old == isSealedTotpSecret new
  | _, _ => true

def Session.clearStepUp (x : Session) : Session := {x with stepUpAt := none,stepUpEpoch := none}

/-- All sessions without their step-ups. -/
def clearStepUps (rows : List Session) : List Session :=
  updateWhere (fun x => x.stepUpAt.isSome) Session.clearStepUp rows

variable (s : Account)

/-- Write the password and the secret of the admin row with the trigger on these
columns: a new secret raises the epoch, and it or a new password ends every
step-up. -/
def writeAdmin (passwordHash : String) (totp : Option String) (epoch : ℕ) : Account :=
  {s with
    passwordHash := passwordHash
    totp := totp
    securityEpoch := if totpChanged s.totp totp then s.securityEpoch+1 else epoch
    sessions :=
      if totpChanged s.totp totp||passwordHash != s.passwordHash then clearStepUps s.sessions
      else s.sessions}

/-- Delete sessions with the handoff codes that they issued. -/
def deleteSessions (p : Session → Bool) : Account := {s with
    sessions := deleteWhere p s.sessions
    handoffCodes := deleteWhere
      (fun code => s.sessions.any fun x => decide (x.token=code.sessionId)&&p x) s.handoffCodes}

/-- Give the passkeys of one epoch to the next. -/
def restamp (rows : List Passkey) (old new : ℕ) : List Passkey :=
  updateWhere (fun p => decide (p.epoch=old)) (fun p => {p with epoch := new}) rows

/-- The session is neither expired nor idle. -/
def isLive (w : World) (now : ℕ) (x : Session) : Bool :=
  decide (now<x.expiresAt) && (decide (w.idle=0)||decide (now<x.lastSeenAt.getD x.createdAt+w.idle))

def liveSession (w : World) (s : Account) (token now : ℕ) : Option Session :=
  s.sessions.find? fun x => decide (x.token=token)&&isLive w now x

def insertSession (w : World) (s : Account) (client : Option String) (proof : Proof) (now : ℕ) :
    Account :=
  {s with
    sessions := s.sessions++[{
      token := s.next, createdAt := now, expiresAt := now+w.sessionTtl, lastSeenAt := some now
      stepUpAt := none, stepUpEpoch := none, handoffClientId := client, proof := proof
      passwordVersion := s.passwordVersion}]
    next := s.next+1}

/-- Replace the recovery codes. -/
def regenerateRecoveryCodes (codes : List String) : Account := {s with
    recoveryCodes := codes.mapIdx fun i hash => ⟨s.next+i,hash,none⟩
    next := s.next+codes.length}

/-- The receipt names a code of the current set. -/
def recoveryReceiptCurrent (receipt : Option Receipt) : Bool :=
  match receipt with
  | none => true
  | some r => s.recoveryCodes.any fun row => decide (row.id=r.id)&&decide (row.usedAt=some r.usedAt)

/-- The row holds an unused code. -/
def isUnused (hash : String) (row : RecoveryCode) : Bool :=
  decide (row.codeHash=hash)&&decide (row.usedAt=none)

/-- Mark the unused rows of a code as spent. -/
def spendCode (hash : String) (now : ℕ) : Account := {s with
    recoveryCodes := updateWhere (isUnused hash) (fun row => {row with usedAt := some now})
      s.recoveryCodes}

def consumeRecoveryCode (hash : String) (now : ℕ) : Bool×Account :=
  (decide ((s.recoveryCodes.filter (isUnused hash)).length=1),spendCode s hash now)

/-- Accept a code of the authenticator for a time step later than every accepted
one. Old steps are pruned on the way. -/
def verifyTotpOnce (w : World) (s : Account) (secret text : String) (now : ℕ) : Bool×Account :=
  match w.matchTotpStep secret text now with
  | none => (false,s)
  | some step =>
    let kept := deleteWhere (fun old => decide (old<step-10)) s.usedSteps
    if kept.any (fun old => decide (step≤old)) then (false,{s with usedSteps := kept})
    else (true,{s with usedSteps := kept++[step]})

section
variable (w : World) (s : Account) (totpSecret : Option String) (code : Code) (now : ℕ)

/-- Verify a code outside a transaction: an authenticator code where there is a
secret, else a recovery code, with its receipt. -/
def verifyLoginFactor : Answer×Account :=
  match code with
  | .digits text =>
    match totpSecret with
    | none => (.refused,s)
    | some secret =>
      let checked := verifyTotpOnce w s secret text now
      (if checked.1 then .verified none else .refused,checked.2)
  | .recovery hash =>
    match s.recoveryCodes.find? (isUnused hash) with
    | none => (.refused,s)
    | some row => (.verified (some ⟨row.id,now⟩),spendCode s hash now)
  | .other => (.refused,s)

/-- Verify a code inside the transaction of its caller. -/
def verifySecondFactor : Bool×Account :=
  match code with
  | .digits text =>
    match totpSecret with
    | none => (false,s)
    | some secret => verifyTotpOnce w s secret text now
  | .recovery hash => consumeRecoveryCode s hash now
  | .other => (false,s)

end

end SellRight.AdminAccount
