import SellRight.AdminSignIn
import SellRight.RunHistory

/-!
# How an admin changes credentials

Password change and reset, step-ups, the authenticator, the passkeys and the end
of sessions. Together with the sign-ins these are the steps of one account, each
atomic under the lock of its admin row.
-/

namespace SellRight.AdminCredentials

open RowTable AdminAccount AdminSignIn

/-- The step-up a password change was admitted with. -/
structure StepUpSnapshot where
  credentials : CredentialSnapshot
  (stepUpAt stepUpEpoch : Option ℕ)

variable (s : Account)

/-- The captured step-up is still the session's, fresh, and of the current epoch. -/
def stepUpCurrent (own : Session) (captured : StepUpSnapshot) (now : ℕ) : Bool :=
  match own.stepUpAt with
  | none => false
  | some at' =>
    decide (now-at' ≤ stepUpWindow)&&decide (captured.stepUpAt=some at') &&
      decide (own.stepUpEpoch=captured.stepUpEpoch) &&
      decide (own.stepUpEpoch=some s.securityEpoch)

/-- Replace the password and sign out every other session. -/
def changeAdminPassword (w : World) (s : Account) (verifiedHash newHash : String) (keepToken : ℕ)
    (captured : Option StepUpSnapshot) (now : ℕ) : Answer×Account :=
  if s.passwordHash≠verifiedHash then (.refused,s)
  else if captured.any fun c => !snapshotCurrent s c.credentials then (.refused,s)
  else match liveSession w s keepToken now with
    | none => (.refused,s)
    | some own =>
      if captured.any fun c => !stepUpCurrent s own c now then (.refused,s)
      else
        let written := {writeAdmin s newHash s.totp s.securityEpoch with
          passwordVersion := s.passwordVersion+1}
        (.revoked (s.sessions.countP fun x => decide (x.token≠keepToken)),
          deleteSessions written fun x => decide (x.token≠keepToken))

/-- Issue a reset link. -/
def issuePasswordReset (w : World) (s : Account) (passwordHash : String) (epoch now : ℕ) :
    Answer×Account :=
  issueChallenge w s .passwordReset passwordHash epoch (now+passwordResetTtl)

/-- Set the password of a redeemed link, raise the epoch and sign out everything. -/
def resetCredentials (newHash : String) : Account :=
  let written := writeAdmin s newHash s.totp (s.securityEpoch+1)
  {deleteSessions written fun _ => true with
    passkeyReviewRequired := !s.passkeys.isEmpty
    passkeys := restamp s.passkeys s.securityEpoch (s.securityEpoch+1)
    authChallenges := deleteWhere (fun c => !c.consumed) s.authChallenges
    passkeyChallenges := deleteWhere (fun c => !c.consumed&&decide (c.kind≠.login))
      s.passkeyChallenges
    passwordVersion := s.passwordVersion+1}

/-- Redeem a reset link. A link of replaced credentials stays claimed. -/
def redeemPasswordReset (w : World) (s : Account) (token : ℕ) (newHash : String) (now : ℕ) :
    Answer×Account :=
  match s.authChallenges.find? (isLiveChallenge .passwordReset token now) with
  | none => (.refused,s)
  | some claim =>
    let claimed := claimAuthChallenge s .passwordReset token now
    if challengeCurrent w s claim then (.done,resetCredentials claimed newHash)
    else (.refused,claimed)

def stampStepUp (token epoch now : ℕ) : Account := {s with
    sessions := updateWhere (fun x => decide (x.token=token))
      (fun x => {x with stepUpAt := some now,stepUpEpoch := some epoch}) s.sessions}

section
variable (w : World) (s : Account)

/-- Commit a step-up whose password and code were verified before. -/
def markStepUpVerifiedIfCurrent (token : ℕ) (verifiedHash : String)
    (captured : CredentialSnapshot) (now : ℕ) : Answer×Account :=
  if s.passwordHash≠verifiedHash then (.refused,s)
  else if !snapshotCurrent s captured then (.refused,s)
  else if (liveSession w s token now).isNone then (.refused,s)
  else (.done,stampStepUp s token captured.epoch now)

/-- Start a step-up with a passkey. -/
def adminStepUpOptions (token now : ℕ) : Answer×Account :=
  if (liveSession w s token now).isNone||s.passkeys.isEmpty then (.refused,s)
  else issueCeremony s .stepUp (some token) (some s.securityEpoch) now

/-- Finish a step-up with a passkey. -/
def adminStepUpVerify (token : ℕ) (a : Assertion) (now : ℕ) : Answer×Account :=
  if (liveSession w s token now).isNone then (.refused,s)
  else match claimChallenge s .stepUp (some token) (some s.securityEpoch) a.challenge a.nonce now with
    | none => (.refused,s)
    | some claimed =>
      match usePasskey claimed a false with
      | .error left => (.refused,left)
      | .ok (_,used) => (.done,stampStepUp used token s.securityEpoch now)

end

/-- What a change of the authenticator does. -/
inductive FactorAction
  | enable
  | disable
  | recovery
  deriving DecidableEq

/-- A verified change of the second factor. -/
structure FactorChange where
  token : ℕ
  passwordHash : String
  (totpSecret totpVersion : Option String)
  securityEpoch : Option ℕ
  receipt : Option Receipt
  action : FactorAction
  secret : Option String
  code : Code
  codes : List String
  required : Bool

/-- Enrol the authenticator, carry the passkeys over and sign out every other
session. -/
def enableTotp (token : ℕ) (stored : String) (codes : List String) : Account :=
  let written := writeAdmin s s.passwordHash (some stored) s.securityEpoch
  let carried := {written with
    passkeys := restamp s.passkeys s.securityEpoch written.securityEpoch}
  regenerateRecoveryCodes (deleteSessions carried fun x => decide (x.token≠token)) codes

/-- Remove the authenticator. Passkeys are carried over, else the recovery codes
go too. -/
def disableTotp : Account :=
  let written := writeAdmin s s.passwordHash none s.securityEpoch
  if s.passkeys.isEmpty then {written with recoveryCodes := []}
  else {written with passkeys := restamp s.passkeys s.securityEpoch written.securityEpoch}

section
variable (w : World)

/-- Commit a change of the second factor while its proof is current. An error
undoes everything, so it leaves the account as it was. -/
def mutateAdminSecondFactor (s : Account) (i : FactorChange) (now : ℕ) : Answer×Account :=
  if s.passwordHash≠i.passwordHash∨s.totp≠i.totpVersion then (.refused,s)
  else if i.securityEpoch.any fun epoch => decide (s.securityEpoch≠epoch) then (.refused,s)
  else if !recoveryReceiptCurrent s i.receipt then (.refused,s)
  else if (liveSession w s i.token now).isNone then (.refused,s)
  else match i.action with
    | .disable =>
      let checked := verifySecondFactor w s i.totpSecret i.code now
      if i.required&&s.passkeys.isEmpty then (.refused,s)
      else if i.totpSecret.isNone || !checked.1 then (.refused,s)
      else (.done,disableTotp checked.2)
    | .enable =>
      match i.secret with
      | none => (.refused,s)
      | some secret =>
        if i.totpSecret.isSome then (.refused,s)
        else (.done,enableTotp s i.token (w.sealTotp secret) i.codes)
    | .recovery =>
      if i.totpSecret.isNone&&s.passkeys.isEmpty then (.refused,s)
      else (.done,regenerateRecoveryCodes s i.codes)

/-- The session holds a step-up that counts. -/
def isSteppedUp (s : Account) (token now : ℕ) (x : Session) : Bool :=
  decide (x.token=token)&&isLive w now x &&
    x.stepUpAt.any (fun at' => decide (now<at'+stepUpWindow)) &&
    decide (x.stepUpEpoch=some s.securityEpoch)

/-- The live session is young enough for the first second factor. -/
def isFresh (token now : ℕ) (x : Session) : Bool :=
  decide (x.token=token)&&isLive w now x&&decide (now<x.createdAt+freshEnroll)

/-- The session that may add a passkey: a step-up, or a young session of an account
without a second factor. -/
def lockEnrollSession (s : Account) (token now : ℕ) : Option Session :=
  match s.sessions.find? (isSteppedUp w s token now) with
  | some x => some x
  | none =>
    if s.totp.isSome || !s.passkeys.isEmpty then none
    else s.sessions.find? (isFresh w token now)

/-- Start the registration of a passkey. -/
def adminRegisterOptions (s : Account) (token now : ℕ) : Answer×Account :=
  if (lockEnrollSession w s token now).isNone then (.refused,s)
  else if maxPasskeysPerOwner ≤ s.passkeys.length then (.refused,s)
  else issueCeremony s .register (some token) (some s.securityEpoch) now

end

/-- What the verification library made of a registration. -/
structure Registration where
  (challenge nonce : ℕ)
  /-- Credential id and counter, when the attestation verifies. -/
  credential : Option (String×ℕ)
  /-- Digests of the recovery codes of a first factor. -/
  codes : List String

/-- Insert the passkey. The first second factor comes with recovery codes and
signs out every other session. -/
def storePasskey (token : ℕ) (credentialId : String) (counter : ℕ)
    (codes : List String) : Account :=
  let stored := {s with
    passkeys := s.passkeys++[⟨s.next,credentialId,counter,s.securityEpoch⟩]
    next := s.next+1}
  if s.totp.isNone&&s.passkeys.isEmpty then
    deleteSessions (regenerateRecoveryCodes stored codes) fun x => decide (x.token≠token)
  else stored

/-- Finish the registration of a passkey. -/
def adminRegisterVerify (w : World) (s : Account) (token : ℕ) (r : Registration) (now : ℕ) :
    Answer×Account :=
  if (lockEnrollSession w s token now).isNone then (.refused,s)
  else match claimChallenge s .register (some token) (some s.securityEpoch) r.challenge r.nonce now with
    | none => (.refused,s)
    | some claimed =>
      match r.credential with
      | none => (.refused,claimed)
      | some (credentialId,counter) =>
        if maxPasskeysPerOwner ≤ s.passkeys.length ||
            s.passkeys.any (fun p => decide (p.credentialId=credentialId)) then (.refused,claimed)
        else (.enrolled s.next,storePasskey claimed token credentialId counter r.codes)

section
variable (s : Account)

/-- Delete a passkey, the pending ceremonies of the admin and the step-ups of all
sessions. -/
def dropPasskey (id : ℕ) : Account := {s with
    passkeys := deleteWhere (fun p => decide (p.id=id)) s.passkeys
    passkeyChallenges := deleteWhere (fun c => !c.consumed&&decide (c.kind≠.login))
      s.passkeyChallenges
    sessions := clearStepUps s.sessions}

/-- Remove a passkey. The last factor of an account that needs one stays, and the
recovery codes go with the last factor. -/
def deleteAdminPasskey (id : ℕ) (secondFactorRequired : Bool) : Answer×Account :=
  if !s.passkeys.any (fun p => decide (p.id=id)) then (.refused,s)
  else
    let dropped := dropPasskey s id
    if s.totp.isNone&&dropped.passkeys.isEmpty then
      if secondFactorRequired then (.refused,s) else (.done,{dropped with recoveryCodes := []})
    else (.done,dropped)

/-- After a reset, keep exactly the confirmed passkeys. -/
def completePasskeyReview (verifiedHash : String) (keep : List ℕ) : Answer×Account :=
  if s.passwordHash≠verifiedHash∨s.passkeyReviewRequired=false then (.refused,s)
  else
    let left := deleteWhere (fun p => !keep.contains p.id) s.passkeys
    (.done,{s with
      passkeys := left
      recoveryCodes := if s.totp.isNone&&left.isEmpty then [] else s.recoveryCodes
      passkeyReviewRequired := false})

/-- Sign out one session. -/
def deleteAdminSession (token : ℕ) : Answer×Account :=
  (.done,deleteSessions s fun x => decide (x.token=token))

/-- Sign out every other session. -/
def revokeOtherAdminSessions (keepToken : ℕ) : Answer×Account :=
  (.done,deleteSessions s fun x => decide (x.token≠keepToken))

end

/-- A request of a session: an idle one is removed, a live one is marked as seen. -/
def resolveAdmin (w : World) (s : Account) (token now : ℕ) : Answer×Account :=
  match s.sessions.find? fun x => decide (x.token=token)&&decide (now<x.expiresAt) with
  | none => (.refused,s)
  | some x =>
    if isLive w now x then
      (.done,{s with
        sessions := updateWhere (fun x => decide (x.token=token))
          (fun x => {x with lastSeenAt := some now}) s.sessions})
    else (.refused,deleteSessions s fun x => decide (x.token=token))

/-- One atomic step of the account. -/
inductive Action
  /-- Commit of a sign-in with everything in one request. -/
  | createAdminSessionIfCredential (verifiedHash : String) (secondFactorVerified : Bool)
      (captured : Option (CredentialSnapshot×Option String)) (now : ℕ)
  | rehashAdminPasswordIfUnchanged (verifiedHash newHash : String)
  | verifyLoginFactor (totpSecret : Option String) (code : Code) (now : ℕ)
  | issueLoginChallenge (passwordHash : String) (epoch now : ℕ)
  | attemptLoginChallenge (token now : ℕ)
  | redeemLoginChallenge (token : ℕ) (code : Code) (now : ℕ)
  | adminLoginOptions (now : ℕ)
  | adminLoginVerify (assertion : Assertion) (now : ℕ)
  | issueHandoffCode (principal : Principal) (ask : Authorize) (now : ℕ)
  | takeHandoffCode (redemption : Redemption) (now : ℕ)
  | redeemHandoffCode (code now : ℕ)
  | changeAdminPassword (verifiedHash newHash : String) (keepToken : ℕ)
      (captured : Option StepUpSnapshot) (now : ℕ)
  | issuePasswordReset (passwordHash : String) (epoch now : ℕ)
  | redeemPasswordReset (token : ℕ) (newHash : String) (now : ℕ)
  | markStepUpVerifiedIfCurrent (token : ℕ) (verifiedHash : String)
      (captured : CredentialSnapshot) (now : ℕ)
  | adminStepUpOptions (token now : ℕ)
  | adminStepUpVerify (token : ℕ) (assertion : Assertion) (now : ℕ)
  | mutateAdminSecondFactor (change : FactorChange) (now : ℕ)
  | adminRegisterOptions (token now : ℕ)
  | adminRegisterVerify (token : ℕ) (registration : Registration) (now : ℕ)
  | deleteAdminPasskey (id : ℕ) (secondFactorRequired : Bool)
  | completePasskeyReview (verifiedHash : String) (keep : List ℕ)
  | deleteAdminSession (token : ℕ)
  | revokeOtherAdminSessions (keepToken : ℕ)
  | resolveAdmin (token now : ℕ)

/-- While passkeys await their review, a session may only review them or leave. The
guard runs before the transaction, and a reset in between ends the session. -/
def underReview (answer : Answer×Account) : Answer×Account :=
  if s.passkeyReviewRequired then (.refused,s) else answer

/-- Perform one step. -/
def step (w : World) (s : Account) : Action → Answer×Account
  | .createAdminSessionIfCredential hash verified captured now =>
    createAdminSessionIfCredential w s hash verified captured now
  | .rehashAdminPasswordIfUnchanged old new => rehashAdminPasswordIfUnchanged s old new
  | .verifyLoginFactor secret code now => verifyLoginFactor w s secret code now
  | .issueLoginChallenge hash epoch now => issueLoginChallenge w s hash epoch now
  | .attemptLoginChallenge token now => attemptLoginChallenge s token now
  | .redeemLoginChallenge token code now => redeemLoginChallenge w s token code now
  | .adminLoginOptions now => adminLoginOptions s now
  | .adminLoginVerify a now => adminLoginVerify w s a now
  | .issueHandoffCode p ask now => underReview s (issueHandoffCode w s p ask now)
  | .takeHandoffCode r now => takeHandoffCode w s r now
  | .redeemHandoffCode code now => redeemHandoffCode w s code now
  | .changeAdminPassword old new keep captured now =>
    underReview s (changeAdminPassword w s old new keep captured now)
  | .issuePasswordReset hash epoch now => issuePasswordReset w s hash epoch now
  | .redeemPasswordReset token new now => redeemPasswordReset w s token new now
  | .markStepUpVerifiedIfCurrent token hash captured now =>
    underReview s (markStepUpVerifiedIfCurrent w s token hash captured now)
  | .adminStepUpOptions token now => underReview s (adminStepUpOptions w s token now)
  | .adminStepUpVerify token a now => underReview s (adminStepUpVerify w s token a now)
  | .mutateAdminSecondFactor change now =>
    underReview s (mutateAdminSecondFactor w s change now)
  | .adminRegisterOptions token now =>
    underReview s (adminRegisterOptions w s token now)
  | .adminRegisterVerify token r now =>
    underReview s (adminRegisterVerify w s token r now)
  | .deleteAdminPasskey id required => deleteAdminPasskey s id required
  | .completePasskeyReview hash keep => completePasskeyReview s hash keep
  | .deleteAdminSession token => deleteAdminSession s token
  | .revokeOtherAdminSessions keep => revokeOtherAdminSessions s keep
  | .resolveAdmin token now => resolveAdmin w s token now

end SellRight.AdminCredentials
