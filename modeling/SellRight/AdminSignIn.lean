import SellRight.AdminAccount

/-!
# How an admin signs in

The password in one or two steps, a passkey, and the handoff of a session to a
hub. Verification happens before the committing transaction, so a commit carries
what its caller captured at any earlier moment.
-/

namespace SellRight.AdminSignIn

open RowTable AdminAccount

/-- Credentials captured before a verification. -/
structure CredentialSnapshot where
  epoch : ℕ
  totpVersion : Option String
  /-- Recovery code spent by the verification. -/
  receipt : Option Receipt

variable (s : Account)

/-- The account still carries the captured credentials. -/
def snapshotCurrent (captured : CredentialSnapshot) : Bool :=
  decide (s.securityEpoch=captured.epoch)&&decide (s.totp=captured.totpVersion) &&
    recoveryReceiptCurrent s captured.receipt

/-- A proof without a second factor is refused once there is one. -/
def missesFactor (secondFactorVerified : Bool) : Bool :=
  !secondFactorVerified&&(s.totp.isSome || !s.passkeys.isEmpty)

/-- Write the new form of the verified password, if the caller brought one. -/
def rehash (captured : Option (CredentialSnapshot×Option String)) : Account :=
  match captured.bind Prod.snd with
  | none => s
  | some next => writeAdmin s next s.totp s.securityEpoch

variable (w : World)

/-- Create a session while the verified password is still the account's. -/
def createAdminSessionIfCredential (s : Account) (verifiedHash : String)
    (secondFactorVerified : Bool) (captured : Option (CredentialSnapshot×Option String))
    (now : ℕ) : Answer×Account :=
  if s.passwordHash≠verifiedHash then (.refused,s)
  else if missesFactor s secondFactorVerified then (.refused,s)
  else if captured.any fun c => !snapshotCurrent s c.1 then (.refused,s)
  else (.signedIn s.next,insertSession w (rehash s captured) none
    (.password verifiedHash (captured.map fun c => c.1.epoch)) now)

/-- Write the new form of the password if the verified one is still stored. -/
def rehashAdminPasswordIfUnchanged (verifiedHash newHash : String) :
    Answer×Account :=
  if s.passwordHash≠verifiedHash then (.refused,s)
  else (.done,writeAdmin s newHash s.totp s.securityEpoch)

/-- Store a sign-in token and drop the older ones of its kind. -/
def issueChallenge (s : Account) (kind : Kind) (passwordHash : String)
    (epoch expiresAt : ℕ) : Answer×Account :=
  (.issued s.next,{s with
      authChallenges := deleteWhere (fun c => decide (c.kind=kind)) s.authChallenges ++
        [⟨s.next,kind,credentialDigest w passwordHash,passwordHash,epoch,0,expiresAt,false⟩]
      next := s.next+1})

/-- Issue the token of the second step. -/
def issueLoginChallenge (s : Account) (passwordHash : String) (epoch now : ℕ) :
    Answer×Account :=
  issueChallenge w s .loginTwoFactor passwordHash epoch (now+loginChallengeTtl)

/-- The token is stored, unclaimed and not expired. -/
def isLiveChallenge (kind : Kind) (token now : ℕ) (c : AuthChallenge) : Bool :=
  decide (c.token=token)&&decide (c.kind=kind) && !c.consumed&&decide (now<c.expiresAt)

/-- Count one code against a token. -/
def attemptLoginChallenge (token now : ℕ) : Answer×Account :=
  let hit := fun c => isLiveChallenge .loginTwoFactor token now c &&
    decide (c.attempts<loginChallengeMaxAttempts)
  if s.authChallenges.any hit then
    (.done,{s with
      authChallenges := updateWhere hit (fun c => {c with attempts := c.attempts+1})
        s.authChallenges})
  else (.refused,s)

def claimAuthChallenge (kind : Kind) (token now : ℕ) : Account := {s with
    authChallenges := updateWhere (isLiveChallenge kind token now)
      (fun c => {c with consumed := true}) s.authChallenges}

/-- The claimed token still fits the account. -/
def challengeCurrent (s : Account) (claim : AuthChallenge) : Bool :=
  decide (claim.digest=credentialDigest w s.passwordHash)&&decide (claim.epoch=s.securityEpoch)

/-- Redeem a sign-in token with a code. A wrong code undoes the claim, a token of
replaced credentials stays claimed. -/
def redeemLoginChallenge (s : Account) (token : ℕ) (code : Code) (now : ℕ) :
    Answer×Account :=
  match s.authChallenges.find? (isLiveChallenge .loginTwoFactor token now) with
  | none => (.refused,s)
  | some claim =>
    let claimed := claimAuthChallenge s .loginTwoFactor token now
    if challengeCurrent w s claim then
      let checked := verifySecondFactor w claimed (s.totp.map w.openTotp) code now
      if checked.1 then
        (.signedIn s.next,insertSession w checked.2 none (.password claim.hash (some claim.epoch)) now)
      else (.invalidCode,s)
    else (.refused,claimed)

/-- Store the challenge and the nonce of a ceremony. -/
def issueCeremony (kind : Ceremony) (session epoch : Option ℕ) (now : ℕ) :
    Answer×Account :=
  (.issued s.next,{s with
      passkeyChallenges := s.passkeyChallenges ++
        [⟨s.next,kind,session,s.next+1,epoch,now+challengeTtl,false⟩]
      next := s.next+2})

/-- Start a passkey sign-in. -/
def adminLoginOptions (now : ℕ) : Answer×Account :=
  issueCeremony s .login none none now

/-- The ceremony may be claimed with these bindings. -/
def isClaimable (kind : Ceremony) (session epoch : Option ℕ) (challenge nonce now : ℕ)
    (c : PasskeyChallenge) : Bool :=
  decide (c.challenge=challenge)&&decide (c.kind=kind) && !c.consumed &&
    decide (now<c.expiresAt)&&decide (c.nonce=nonce)&&decide (c.session=session) &&
    decide (c.epoch=epoch)

def claimChallenge (kind : Ceremony) (session epoch : Option ℕ)
    (challenge nonce now : ℕ) : Option Account :=
  if s.passkeyChallenges.any (isClaimable kind session epoch challenge nonce now) then
    some {s with
      passkeyChallenges := updateWhere (isClaimable kind session epoch challenge nonce now)
        (fun c => {c with consumed := true}) s.passkeyChallenges}
  else none

/-- What the verification library made of an assertion, read together with the
request: the ceremony, the passkey named by the request and the new counter. -/
structure Assertion where
  (challenge nonce : ℕ)
  /-- Passkey found by its credential id before the transaction. -/
  passkey : ℕ
  ownHandle : Bool
  /-- New signature counter, when the signature verifies. -/
  counter : Option ℕ

/-- The counter did not go back. -/
def counterAcceptable (stored next : ℕ) : Bool :=
  decide (stored<next)||(decide (stored=0)&&decide (next=0))

/-- The passkey under lock. A row of an older epoch is deleted here. -/
def lockCredential (id : ℕ) : Option Passkey×Account :=
  match s.passkeys.find? fun p => decide (p.id=id) with
  | none => (none,s)
  | some p =>
    if p.epoch=s.securityEpoch then (some p,s)
    else (none,{s with passkeys := deleteWhere (fun p => decide (p.id=id)) s.passkeys})

/-- Write the signature counter of a passkey. -/
def setCounter (id counter : ℕ) : Account := {s with
    passkeys := updateWhere (fun row => decide (row.id=id))
      (fun row => {row with counter := counter}) s.passkeys}

/-- Accept the assertion and advance the counter. -/
def verifyAssertion (a : Assertion) (p : Passkey) : Option Account :=
  match a.counter with
  | none => none
  | some next => if counterAcceptable p.counter next then some (setCounter s p.id next) else none

/-- Use a passkey after its ceremony was claimed: the account with the advanced
counter, or what a refusal leaves. -/
def usePasskey (a : Assertion) (checkHandle : Bool) :
    Except Account (Passkey×Account) :=
  match lockCredential s a.passkey with
  | (none,s) => .error s
  | (some p,s) =>
    if checkHandle && !a.ownHandle then .error s
    else match verifyAssertion s a p with
      | none => .error s
      | some s => .ok (p,s)

/-- Finish a passkey sign-in. -/
def adminLoginVerify (s : Account) (a : Assertion) (now : ℕ) : Answer×Account :=
  match claimChallenge s .login none none a.challenge a.nonce now with
  | none => (.refused,s)
  | some claimed =>
    match usePasskey claimed a true with
    | .error left => (.refused,left)
    | .ok (p,used) => (.signedIn used.next,insertSession w used none (.passkey p.id p.epoch) now)

/-- What a request knows of its session, read before its transaction. -/
structure Principal where
  sessionId : ℕ
  /-- When it was created, absent for a handed-over session. -/
  sessionCreatedAt : Option ℕ
  (stepUpAt stepUpEpoch : Option ℕ)
  securityEpoch : ℕ
  deriving DecidableEq

/-- What an authorization of a hub asks for. -/
structure Authorize where
  (clientId redirectUri codeChallenge : String)
  /-- Method, challenge and state have the expected form. -/
  wellFormed : Bool

/-- The registered client of an id and an exact callback. -/
def findHandoffClient (clientId redirectUri : String) : Option HandoffClient :=
  w.clients.find? fun c => decide (c.id=clientId)&&decide (c.redirectUri=redirectUri)

/-- Last sign-in or step-up of a request. -/
def freshAt (p : Principal) : ℕ := max (p.sessionCreatedAt.getD 0)
    (if p.stepUpEpoch=some p.securityEpoch then p.stepUpAt.getD 0 else 0)

/-- Issue a handoff code for a request. The code names its session, so the insert
fails when the session is gone. -/
def issueHandoffCode (s : Account) (p : Principal) (ask : Authorize) (now : ℕ) :
    Answer×Account :=
  match findHandoffClient w ask.clientId ask.redirectUri with
  | none => (.refused,s)
  | some client =>
    if !w.issuer || !ask.wellFormed||decide (handoffFreshAuth<now-freshAt p) ||
        !s.sessions.any (fun x => decide (x.token=p.sessionId)) then (.refused,s)
    else (.issued s.next,{s with
        handoffCodes := deleteWhere (fun c => decide (c.expiresAt<now)) s.handoffCodes ++
          [⟨s.next,client.id,client.redirectUri,ask.codeChallenge,p.sessionId,p.securityEpoch,
            now+handoffCodeTtl⟩]
        next := s.next+1})

/-- What a redemption presents. -/
structure Redemption where
  (clientId clientSecret redirectUri : String)
  code : ℕ
  codeVerifier : String
  wellFormed : Bool

/-- The code may be redeemed by the client with the verifier. -/
def codeFits (client : HandoffClient) (r : Redemption) (row : HandoffCode) : Bool :=
  decide (row.clientId=client.id)&&decide (row.redirectUri=client.redirectUri) &&
    r.wellFormed&&decide (row.codeChallenge=w.s256 r.codeVerifier)

/-- First part of a redemption: delete the code in the statement that reads it. A
code that fits goes on to the transaction. -/
def takeHandoffCode (s : Account) (r : Redemption) (now : ℕ) : Answer×Account :=
  match findHandoffClient w r.clientId r.redirectUri with
  | none => (.refused,s)
  | some client =>
    if !w.issuer||decide (w.sha256 r.clientSecret≠client.secretSha256) then (.refused,s)
    else
      let hit := fun row : HandoffCode => decide (row.code=r.code)&&decide (now<row.expiresAt)
      match s.handoffCodes.find? hit with
      | none => (.refused,s)
      | some row =>
        let left := {s with handoffCodes := deleteWhere hit s.handoffCodes}
        if codeFits w client r row then (.done,{left with takenCodes := s.takenCodes++[row]})
        else (.refused,left)

/-- Second part of a redemption, in its own transaction: the epoch is unchanged
and the issuing session is live. -/
def redeemHandoffCode (s : Account) (code now : ℕ) : Answer×Account :=
  match s.takenCodes.find? fun row => decide (row.code=code) with
  | none => (.refused,s)
  | some row =>
    let left :=
      {s with takenCodes := deleteWhere (fun row => decide (row.code=code)) s.takenCodes}
    if s.securityEpoch=row.epoch∧(liveSession w s row.sessionId now).isSome then
      (.signedIn s.next,
        insertSession w left (some row.clientId) (.handoff row.sessionId row.epoch) now)
    else (.refused,left)

end SellRight.AdminSignIn
