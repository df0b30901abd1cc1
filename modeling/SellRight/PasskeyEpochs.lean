import SellRight.AdminSessionSteps

/-!
# Passkeys across epochs

Every stored passkey is of the current epoch, a step that removes one leaves no
step-up behind, and only a password change or a reset replaces the password.
-/

namespace SellRight.PasskeyEpochs

open RowTable RowDescent RunHistory AdminAccount AdminSignIn AdminCredentials AdminTokens List
open AdminSessionSteps

variable {w : World} {s s' s'' : Account} {a : Action}

/-- Neither passkeys nor epoch, review or password changed. -/
structure SameCredentials (s s' : Account) : Prop where
  passkeys : s'.passkeys=s.passkeys
  securityEpoch : s'.securityEpoch=s.securityEpoch
  review : s'.passkeyReviewRequired=s.passkeyReviewRequired
  passwordVersion : s'.passwordVersion=s.passwordVersion

theorem SameCredentials.refl (s : Account) : SameCredentials s s := ⟨rfl,rfl,rfl,rfl⟩

theorem SameCredentials.trans (h₁ : SameCredentials s s') (h₂ : SameCredentials s' s'') :
    SameCredentials s s'' :=
  ⟨h₂.passkeys.trans h₁.passkeys,h₂.securityEpoch.trans h₁.securityEpoch,
    h₂.review.trans h₁.review,h₂.passwordVersion.trans h₁.passwordVersion⟩

/-- Writing the secret back is no change. -/
@[simp] theorem totpChanged_self (totp : Option String) : totpChanged totp totp=false := by
  cases totp with
  | none => rfl
  | some => simp [totpChanged]

theorem writeAdmin_same (hash : String) :
    SameCredentials s (writeAdmin s hash s.totp s.securityEpoch) :=
  ⟨rfl,by simp [writeAdmin],rfl,rfl⟩

theorem rehash_same (captured : Option (CredentialSnapshot×Option String)) :
    SameCredentials s (rehash s captured) := by
  unfold rehash
  split
  · exact .refl s
  · exact writeAdmin_same _

/-- A verified code changes no credential. -/
theorem SameCredentials.of_code {steps : List ℕ} {codes : List RecoveryCode}
    (h : s'={s with usedSteps := steps,recoveryCodes := codes}) : SameCredentials s s' := by
  subst h
  exact ⟨rfl,rfl,rfl,rfl⟩

theorem createAdminSession_credentials (hash : String) (verified : Bool)
    (captured : Option (CredentialSnapshot×Option String)) (now : ℕ) :
    SameCredentials s
      (createAdminSessionIfCredential w s hash verified captured now).2 := by
  unfold createAdminSessionIfCredential
  split
  · exact .refl s
  split
  · exact .refl s
  · split
    · exact .refl s
    · exact (rehash_same captured).trans ⟨rfl,rfl,rfl,rfl⟩

theorem redeemLoginChallenge_credentials (token : ℕ) (code : Code) (now : ℕ) :
    SameCredentials s (redeemLoginChallenge w s token code now).2 := by
  unfold redeemLoginChallenge
  cases s.authChallenges.find? (isLiveChallenge .loginTwoFactor token now) with
  | none => exact .refl s
  | some =>
    dsimp only
    split
    · split
      · obtain ⟨steps,codes,heq⟩ := verifySecondFactor_writes w
          (claimAuthChallenge s .loginTwoFactor token now) (s.totp.map w.openTotp) code now
        rw [heq]
        exact ⟨rfl,rfl,rfl,rfl⟩
      · exact .refl s
    · exact ⟨rfl,rfl,rfl,rfl⟩

theorem takeHandoffCode_credentials (r : Redemption) (now : ℕ) :
    SameCredentials s (takeHandoffCode w s r now).2 := by
  unfold takeHandoffCode
  split
  · exact .refl s
  split
  · exact .refl s
  dsimp only
  split
  · exact .refl s
  · split <;> exact ⟨rfl,rfl,rfl,rfl⟩

theorem issueHandoffCode_credentials (p : Principal) (ask : Authorize) (now : ℕ) :
    SameCredentials s (issueHandoffCode w s p ask now).2 := by
  unfold issueHandoffCode
  split
  · exact .refl s
  · split <;> exact ⟨rfl,rfl,rfl,rfl⟩

theorem redeemHandoffCode_credentials (code now : ℕ) :
    SameCredentials s (redeemHandoffCode w s code now).2 := by
  unfold redeemHandoffCode
  split
  · exact .refl s
  · split <;> exact ⟨rfl,rfl,rfl,rfl⟩

theorem SameTokens.credentials (h : SameTokens s s') (hks : s'.passkeys=s.passkeys) :
    SameCredentials s s' := by
  obtain ⟨-,-,-,-,-,-,-,hver,hepo,hrev⟩ := h
  exact ⟨hks,hepo,hrev,hver⟩

/-- Every passkey is of the current epoch, and no step-up exists under review. -/
structure Aligned (s : Account) : Prop where
  epochs : ∀ p∈s.passkeys, p.epoch=s.securityEpoch
  review : s.passkeyReviewRequired=true→∀ x∈s.sessions, x.stepUpAt=none

/-- A passkey of the first account is missing in the second. -/
def Removed (s s' : Account) : Prop := ∃ p∈s.passkeys, ∀ q∈s'.passkeys, q.id≠p.id

/-- What a step does to the passkeys. -/
structure KeyStep (s s' : Account) : Prop where
  epochs : ∀ p∈s'.passkeys, p.epoch=s'.securityEpoch
  removed : Removed s s'→∀ x∈s'.sessions, x.stepUpAt=none
  review : s'.passkeyReviewRequired=true→s.passkeyReviewRequired=true∨s'.sessions=[]

/-- What a step does to the passkeys that leaves the password. -/
abbrev KeepsPassword (s s' : Account) : Prop :=
  KeyStep s s'∧s'.passwordVersion=s.passwordVersion

/-- Nothing is removed when every row is kept by id. -/
theorem not_removed (h : ∀ p∈s.passkeys, ∃ q∈s'.passkeys, q.id=p.id) : ¬ Removed s s' := by
  rintro ⟨p,hp,hmis⟩
  obtain ⟨q,hq,hid⟩ := h p hp
  exact hmis q hq hid

theorem KeyStep.of_kept (hepo : ∀ p∈s'.passkeys, p.epoch=s'.securityEpoch)
    (hkp : ∀ p∈s.passkeys, ∃ q∈s'.passkeys, q.id=p.id)
    (hrev : s'.passkeyReviewRequired=s.passkeyReviewRequired) : KeyStep s s' where
  epochs := hepo
  removed := fun hrem => absurd hrem (not_removed hkp)
  review := fun h => .inl (hrev ▸ h)

theorem SameCredentials.keyStep (h : SameCredentials s s') (hali : Aligned s) : KeyStep s s' := by
  refine .of_kept ?_ (fun p hp => ⟨p,h.passkeys ▸ hp,rfl⟩) h.review
  rw [h.passkeys,h.securityEpoch]
  exact hali.epochs

theorem mem_restamp {rows : List Passkey} {old : ℕ} (new : ℕ) (h : ∀ p∈rows, p.epoch=old) :
    (∀ q∈restamp rows old new, q.epoch=new)∧∀ p∈rows, ∃ q∈restamp rows old new, q.id=p.id := by
  constructor
  · intro q hq
    rcases mem_updateWhere.mp hq with ⟨p,-,-,rfl⟩|⟨hp,hms⟩
    · rfl
    · exact absurd (h q hp) (by simpa using hms)
  · intro p hp
    exact ⟨{p with epoch := new},mem_updateWhere.mpr (.inl ⟨p,hp,by simpa using h p hp,rfl⟩),rfl⟩

section
variable (hali : Aligned s)
include hali

/-- A refusal that changes nothing. -/
theorem keyStep_refused : KeepsPassword s s :=
  ⟨(SameCredentials.refl s).keyStep hali,rfl⟩

theorem keyStep_counter (id counter : ℕ) (hks : s'.passkeys=(setCounter s id counter).passkeys)
    (hepo : s'.securityEpoch=s.securityEpoch)
    (hrev : s'.passkeyReviewRequired=s.passkeyReviewRequired) : KeyStep s s' := by
  refine .of_kept ?_ ?_ hrev
  · intro q hq
    rw [hks] at hq
    rw [hepo]
    rcases mem_updateWhere.mp hq with ⟨p,hp,-,rfl⟩|⟨hp,-⟩
    · exact hali.epochs p hp
    · exact hali.epochs q hp
  · intro p hp
    rw [hks]
    by_cases hid : p.id=id
    · exact ⟨{p with counter := counter},
        mem_updateWhere.mpr (.inl ⟨p,hp,by simpa using hid,rfl⟩),rfl⟩
    · exact ⟨p,mem_updateWhere.mpr (.inr ⟨hp,by simpa using hid⟩),rfl⟩

/-- A change of the secret carries every passkey over. -/
theorem keyStep_restamp {new : ℕ} (hks : s'.passkeys=restamp s.passkeys s.securityEpoch new)
    (hepo : s'.securityEpoch=new)
    (hrev : s'.passkeyReviewRequired=s.passkeyReviewRequired) : KeyStep s s' := by
  obtain ⟨hepoc,hkp⟩ := mem_restamp new hali.epochs
  refine .of_kept ?_ ?_ hrev
  · rw [hks,hepo]
    exact hepoc
  · rw [hks]
    exact hkp

/-- With aligned passkeys, a refused use of one changes no credential and an
accepted one moves a counter. -/
theorem usesPasskey_keyStep {claimed : Account}
    (heq : SameCredentials s claimed) {id : ℕ} {outcome : Except Account (Passkey×Account)}
    (h : UsesPasskey claimed id outcome) :
    (∀ left, outcome=.error left → KeepsPassword s left) ∧
      ∀ p used, outcome=.ok (p,used)→∀ s' : Account, s'.passkeys=used.passkeys →
        s'.securityEpoch=used.securityEpoch →
        s'.passkeyReviewRequired=used.passkeyReviewRequired →
        s'.passwordVersion=used.passwordVersion →
        KeepsPassword s s' := by
  cases h with
  | refused hlf hkp =>
    refine ⟨?_,nofun⟩
    rintro left hout
    cases hout
    rcases hkp with hkp|⟨p,hp,hsta⟩
    · have hall := heq.trans (SameTokens.credentials hlf hkp)
      exact ⟨hall.keyStep hali,hall.passwordVersion⟩
    · rw [heq.passkeys] at hp
      rw [heq.securityEpoch] at hsta
      exact absurd (hali.epochs p hp) hsta
  | @accepted p counter _ _ _ =>
    refine ⟨nofun,?_⟩
    intro q used hout s' hks hepo hrev hver
    cases hout
    have hmv : s'.passkeys=(setCounter s p.id counter).passkeys := by
      rw [hks]
      simp only [setCounter,heq.passkeys]
    exact ⟨keyStep_counter hali p.id counter hmv (hepo.trans heq.securityEpoch)
      (hrev.trans heq.review),hver.trans heq.passwordVersion⟩

theorem adminLoginVerify_keyStep (assertion : Assertion) (now : ℕ) :
    KeepsPassword s (adminLoginVerify w s assertion now).2 := by
  unfold adminLoginVerify
  cases hcl : claimChallenge s .login none none assertion.challenge assertion.nonce now with
  | none => exact keyStep_refused hali
  | some claimed =>
    obtain ⟨heq,hks⟩ := claimChallenge_same hcl
    obtain ⟨hlf,huse⟩ := usesPasskey_keyStep hali (SameTokens.credentials heq hks)
      (usePasskey_spec claimed assertion true)
    dsimp only
    cases hout : usePasskey claimed assertion true with
    | error left => exact hlf left hout
    | ok out => exact huse out.1 out.2 hout _ rfl rfl rfl rfl

theorem adminStepUpVerify_keyStep (token : ℕ) (assertion : Assertion) (now : ℕ) :
    KeepsPassword s (adminStepUpVerify w s token assertion now).2 := by
  unfold adminStepUpVerify
  split
  · exact keyStep_refused hali
  · cases hcl : claimChallenge s .stepUp (some token) (some s.securityEpoch)
      assertion.challenge assertion.nonce now with
    | none => exact keyStep_refused hali
    | some claimed =>
      obtain ⟨heq,hks⟩ := claimChallenge_same hcl
      obtain ⟨hlf,huse⟩ := usesPasskey_keyStep hali (SameTokens.credentials heq hks)
        (usePasskey_spec claimed assertion false)
      dsimp only
      cases hout : usePasskey claimed assertion false with
      | error left => exact hlf left hout
      | ok out => exact huse out.1 out.2 hout _ rfl rfl rfl rfl

theorem changeAdminPassword_keyStep (old new : String) (keep : ℕ)
    (captured : Option StepUpSnapshot) (now : ℕ) :
    KeyStep s (changeAdminPassword w s old new keep captured now).2 ∧
      (changeAdminPassword w s old new keep captured now).2.passwordVersion =
        if (changeAdminPassword w s old new keep captured now).1=.refused
        then s.passwordVersion else s.passwordVersion+1 := by
  have href : KeyStep s s∧s.passwordVersion =
      if Answer.refused=.refused then s.passwordVersion else s.passwordVersion+1 :=
    ⟨(keyStep_refused hali).1,rfl⟩
  unfold changeAdminPassword
  split
  · exact href
  split
  · exact href
  · cases liveSession w s keep now with
    | none => exact href
    | some =>
      dsimp only
      split
      · exact href
      have heq := writeAdmin_same (s := s) new
      have hepo : ∀ p∈s.passkeys, p.epoch=(writeAdmin s new s.totp s.securityEpoch).securityEpoch :=
        fun p hp => (hali.epochs p hp).trans heq.securityEpoch.symm
      exact ⟨.of_kept hepo (fun p hp => ⟨p,hp,rfl⟩) rfl,rfl⟩

theorem redeemPasswordReset_keyStep (token : ℕ) (new : String) (now : ℕ) :
    KeyStep s (redeemPasswordReset w s token new now).2 ∧
      (redeemPasswordReset w s token new now).2.passwordVersion =
        if (redeemPasswordReset w s token new now).1=.done
        then s.passwordVersion+1 else s.passwordVersion := by
  unfold redeemPasswordReset
  cases s.authChallenges.find? (isLiveChallenge .passwordReset token now) with
  | none => exact ⟨(keyStep_refused hali).1,rfl⟩
  | some =>
    have hcla : SameCredentials s (claimAuthChallenge s .passwordReset token now) :=
      ⟨rfl,rfl,rfl,rfl⟩
    dsimp only
    split
    · have hno : (resetCredentials (claimAuthChallenge s .passwordReset token now) new).sessions =
          [] := filter_eq_nil_iff.mpr fun _ _ => by simp
      refine ⟨⟨?_,fun _ x hx => ?_,fun _ => .inr hno⟩,rfl⟩
      · have hepo : (resetCredentials (claimAuthChallenge s .passwordReset token now)
            new).securityEpoch=s.securityEpoch+1 := by
          simp [resetCredentials,deleteSessions,writeAdmin,claimAuthChallenge]
        rw [hepo]
        exact (mem_restamp (s.securityEpoch+1) hali.epochs).1
      · rw [hno] at hx
        cases hx
    · exact ⟨hcla.keyStep hali,rfl⟩

theorem mutateAdminSecondFactor_keyStep (i : FactorChange) (now : ℕ) :
    KeepsPassword s (mutateAdminSecondFactor w s i now).2 := by
  have href := keyStep_refused hali
  unfold mutateAdminSecondFactor
  split
  · exact href
  split
  · exact href
  split
  · exact href
  split
  · exact href
  · cases i.action with
    | disable =>
      dsimp only
      split
      · exact href
      split
      · exact href
      obtain ⟨_,_,hwri⟩ := verifySecondFactor_writes w s i.totpSecret i.code now
      have heq := SameCredentials.of_code hwri
      clear hwri
      generalize (verifySecondFactor w s i.totpSecret i.code now).2=checked at heq
      unfold disableTotp
      split
      · next hem =>
        rw [List.isEmpty_iff] at hem
        refine ⟨.of_kept ?_ ?_ heq.review,heq.passwordVersion⟩
        · intro p hp
          have hno : p∈checked.passkeys := hp
          rw [hem] at hno
          cases hno
        · intro p hp
          exact ⟨p,heq.passkeys ▸ hp,rfl⟩
      · refine ⟨keyStep_restamp hali ?_ rfl heq.review,heq.passwordVersion⟩
        rw [← heq.passkeys,← heq.securityEpoch]
    | enable =>
      cases i.secret with
      | none => exact href
      | some =>
        dsimp only
        split
        · exact href
        · exact ⟨keyStep_restamp hali rfl rfl rfl,rfl⟩
    | recovery =>
      dsimp only
      split
      · exact href
      · exact ⟨SameCredentials.keyStep ⟨rfl,rfl,rfl,rfl⟩ hali,rfl⟩

theorem storePasskey_keyStep (token : ℕ) (credentialId : String)
    (counter : ℕ) (codes : List String) :
    KeepsPassword s (storePasskey s token credentialId counter codes) := by
  have hepo : ∀ p∈s.passkeys++[⟨s.next,credentialId,counter,s.securityEpoch⟩],
      p.epoch=s.securityEpoch := by
    intro p hp
    rcases mem_append.mp hp with hold|hnew
    · exact hali.epochs p hold
    · cases mem_singleton.mp hnew
      rfl
  unfold storePasskey
  split
  · exact ⟨.of_kept hepo (fun p hp => ⟨p,mem_append_left _ hp,rfl⟩) rfl,rfl⟩
  · exact ⟨.of_kept hepo (fun p hp => ⟨p,mem_append_left _ hp,rfl⟩) rfl,rfl⟩

theorem adminRegisterVerify_keyStep (token : ℕ) (r : Registration) (now : ℕ) :
    KeepsPassword s (adminRegisterVerify w s token r now).2 := by
  unfold adminRegisterVerify
  split
  · exact keyStep_refused hali
  · cases hcl : claimChallenge s .register (some token) (some s.securityEpoch) r.challenge r.nonce
      now with
    | none => exact keyStep_refused hali
    | some claimed =>
      obtain ⟨htok,hks⟩ := claimChallenge_same hcl
      have heq := SameTokens.credentials htok hks
      have hcla : Aligned claimed :=
        ⟨(heq.keyStep hali).epochs,by rw [heq.review,htok.1]; exact hali.review⟩
      cases r.credential with
      | none => exact ⟨heq.keyStep hali,heq.passwordVersion⟩
      | some credential =>
        dsimp only
        split
        · exact ⟨heq.keyStep hali,heq.passwordVersion⟩
        obtain ⟨hstep,hver⟩ :=
          storePasskey_keyStep hcla token credential.1 credential.2 r.codes
        refine ⟨⟨hstep.epochs,?_,?_⟩,hver.trans heq.passwordVersion⟩
        · rintro ⟨p,hp,hmis⟩
          exact hstep.removed ⟨p,hks ▸ hp,hmis⟩
        · exact fun hrev => (hstep.review hrev).imp_left fun h => heq.review ▸ h

theorem deleteAdminPasskey_keyStep (id : ℕ) (required : Bool) :
    KeepsPassword s (deleteAdminPasskey s id required).2 := by
  have hdro : KeyStep s (dropPasskey s id) :=
    ⟨fun p hp => hali.epochs p (mem_deleteWhere.mp hp).1,fun _ => clearStepUps_none,.inl⟩
  unfold deleteAdminPasskey
  split
  · exact keyStep_refused hali
  dsimp only
  split
  · split
    · exact keyStep_refused hali
    · exact ⟨⟨hdro.epochs,hdro.removed,hdro.review⟩,rfl⟩
  · exact ⟨hdro,rfl⟩

theorem completePasskeyReview_keyStep (hash : String) (keep : List ℕ) :
    KeepsPassword s (completePasskeyReview s hash keep).2 := by
  unfold completePasskeyReview
  split_ifs with hpen
  · exact keyStep_refused hali
  have hrev : s.passkeyReviewRequired=true := by
    cases hfla : s.passkeyReviewRequired with
    | true => rfl
    | false => exact absurd (.inr hfla) hpen
  exact ⟨⟨fun p hp => hali.epochs p (mem_deleteWhere.mp hp).1,
    fun _ => hali.review hrev,nofun⟩,rfl⟩

end

/-- The step replaces the password. -/
def replacesPassword (a : Action) (answer : Answer) : Bool :=
  match a with
  | .changeAdminPassword _ _ _ _ _ => decide (answer≠.refused)
  | .redeemPasswordReset _ _ _ => decide (answer=.done)
  | _ => false

theorem step_keyStep (hali : Aligned s) (a : Action) :
    KeyStep s (step w s a).2∧(step w s a).2.passwordVersion =
      if replacesPassword a (step w s a).1=true then s.passwordVersion+1
      else s.passwordVersion := by
  have heq : ∀ {s'}, SameCredentials s s' → KeepsPassword s s' :=
    fun h => ⟨h.keyStep hali,h.passwordVersion⟩
  have hrev : ∀ {out : Answer×Account},
      KeepsPassword s out.2 → KeepsPassword s (underReview s out).2 := by
    intro out h
    unfold underReview
    split
    · exact heq (.refl s)
    · exact h
  cases a with
  | createAdminSessionIfCredential hash verified captured now =>
    exact heq (createAdminSession_credentials hash verified captured now)
  | rehashAdminPasswordIfUnchanged _ new =>
    refine heq ?_
    simp only [step,rehashAdminPasswordIfUnchanged]
    split
    · exact .refl s
    · exact writeAdmin_same new
  | verifyLoginFactor secret code now =>
    obtain ⟨_,_,hwri⟩ := verifyLoginFactor_writes w s secret code now
    exact heq (.of_code hwri)
  | issueLoginChallenge | adminLoginOptions | issuePasswordReset | deleteAdminSession
  | revokeOtherAdminSessions => exact heq ⟨rfl,rfl,rfl,rfl⟩
  | attemptLoginChallenge | resolveAdmin =>
    refine heq ?_
    simp only [step,attemptLoginChallenge,resolveAdmin]
    repeat' split
    all_goals exact ⟨rfl,rfl,rfl,rfl⟩
  | redeemLoginChallenge token code now =>
    exact heq (redeemLoginChallenge_credentials token code now)
  | adminLoginVerify assertion now => exact adminLoginVerify_keyStep hali assertion now
  | issueHandoffCode p ask now => exact hrev (heq (issueHandoffCode_credentials p ask now))
  | takeHandoffCode r now => exact heq (takeHandoffCode_credentials r now)
  | redeemHandoffCode code now => exact heq (redeemHandoffCode_credentials code now)
  | changeAdminPassword old new keep captured now =>
    have hcha := changeAdminPassword_keyStep (w := w) hali old new keep captured now
    simp only [step,underReview,replacesPassword]
    split
    · exact heq (.refl s)
    · refine ⟨hcha.1,hcha.2.trans ?_⟩
      split <;> simp_all
  | redeemPasswordReset token new now =>
    have hres := redeemPasswordReset_keyStep (w := w) hali token new now
    refine ⟨hres.1,hres.2.trans ?_⟩
    simp only [step,replacesPassword]
    split <;> simp_all
  | markStepUpVerifiedIfCurrent | adminStepUpOptions | adminRegisterOptions =>
    refine hrev (heq ?_)
    simp only [markStepUpVerifiedIfCurrent,adminStepUpOptions,
      adminRegisterOptions]
    repeat' split
    all_goals exact ⟨rfl,rfl,rfl,rfl⟩
  | adminStepUpVerify token assertion now =>
    exact hrev (adminStepUpVerify_keyStep hali token assertion now)
  | mutateAdminSecondFactor change now =>
    exact hrev (mutateAdminSecondFactor_keyStep hali change now)
  | adminRegisterVerify token r now =>
    exact hrev (adminRegisterVerify_keyStep hali token r now)
  | deleteAdminPasskey id required => exact deleteAdminPasskey_keyStep hali id required
  | completePasskeyReview hash keep => exact completePasskeyReview_keyStep hali hash keep

end SellRight.PasskeyEpochs
