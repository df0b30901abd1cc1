import SellRight.AdminTokens

/-!
# What one step does to the sessions

Beyond what it keeps, a step creates one session from a proof of the credentials
that it met or stamps a step-up on one session.
-/

namespace SellRight.AdminSessionSteps

open RowTable RowDescent AdminAccount AdminSignIn AdminCredentials AdminTokens List

variable {w : World} {s s' : Account}

/-- The proof fits the current credentials. -/
def Proved (w : World) (s : Account) (now : ℕ) : Proof → Prop
  | .password hash epoch => s.passwordHash=hash∧∀ e, epoch=some e→s.securityEpoch=e
  | .passkey id epoch => s.securityEpoch=epoch∧∃ p∈s.passkeys, p.id=id∧p.epoch=epoch
  | .handoff session epoch =>
    s.securityEpoch=epoch∧∃ x∈s.sessions, x.token=session∧isLive w now x=true

def isPassword : Proof → Bool
  | .password _ _ => true
  | _ => false

/-- The step signs in with the password. -/
def signsInByPassword : Action → Bool
  | .createAdminSessionIfCredential _ _ _ _ => true
  | .redeemLoginChallenge _ _ _ => true
  | _ => false

/-- Session and time of a step-up. -/
def stampOf : Action → Option (ℕ×ℕ)
  | .markStepUpVerifiedIfCurrent token _ _ now => some (token,now)
  | .adminStepUpVerify token _ now => some (token,now)
  | _ => none

/-- What a step does to the sessions: it keeps them, creates one from a proof of
the credentials it met, or stamps a step-up of the epoch it met. -/
inductive Follows (w : World) (s : Account) (a : Action) : Answer → Account → Prop
  /-- No session was created and no step-up stamped. -/
  | kept {answer : Answer} {s' : Account} : Keeps w s s'→(∀ t, answer≠.signedIn t) →
      Follows w s a answer s'
  | created {mid : Account} {client : Option String} {proof : Proof} {now : ℕ} :
      Keeps w s mid → Proved w s now proof→mid.passwordVersion=s.passwordVersion →
      signsInByPassword a=isPassword proof →
      Follows w s a (.signedIn mid.next) (insertSession w mid client proof now)
  | stamped {mid : Account} {token now : ℕ} : Keeps w s mid→s.passkeyReviewRequired=false →
      stampOf a=some (token,now) → Follows w s a .done (stampStepUp mid token s.securityEpoch now)

variable {a : Action}

/-- A step that moves no code, with what it does to the sessions. -/
def Settles (w : World) (s : Account) (a : Action) (out : Answer×Account) : Prop :=
  Follows w s a out.1 out.2∧DropsCodes s out.2

/-- A step that moves no code and signs nobody in. -/
def SignsNone (w : World) (s : Account) (out : Answer×Account) : Prop :=
  Steady w s out.2∧∀ t, out.1≠.signedIn t

theorem SignsNone.refused : SignsNone w s (.refused,s) := ⟨.refl w s,nofun⟩

variable {out : Answer×Account}

theorem SignsNone.settles (h : SignsNone w s out) : Settles w s a out :=
  ⟨.kept h.1.toKeeps h.2,h.1.toDropsCodes⟩

/-- A refusal that changes nothing. -/
theorem Settles.refused : Settles w s a (.refused,s) := SignsNone.refused.settles

/-- A session of a proof that the step met. -/
theorem Settles.created {mid : Account} {client : Option String} {proof : Proof} {now : ℕ}
    (hmid : Steady w s mid) (hpro : Proved w s now proof)
    (hver : mid.passwordVersion=s.passwordVersion) (ha : signsInByPassword a=isPassword proof) :
    Settles w s a (.signedIn mid.next,insertSession w mid client proof now) :=
  ⟨.created hmid.toKeeps hpro hver ha,hmid.stored,hmid.taken,hmid.epoch⟩

/-- A step-up of the epoch that the step met. -/
theorem Settles.stamped {mid : Account} {token now : ℕ} (hmid : Steady w s mid)
    (hrev : s.passkeyReviewRequired=false) (ha : stampOf a=some (token,now)) :
    Settles w s a (.done,stampStepUp mid token s.securityEpoch now) :=
  ⟨.stamped hmid.toKeeps hrev ha,hmid.stored,hmid.taken,hmid.epoch⟩

theorem settles_underReview
    (h : s.passkeyReviewRequired=false → Settles w s a out) : Settles w s a (underReview s out) := by
  unfold underReview
  split
  · exact .refused
  · next hrev => exact h (Bool.not_eq_true _ ▸ hrev)

section
variable (captured : Option (CredentialSnapshot×Option String))

theorem steady_rehash : Steady w s (rehash s captured) := by
  unfold rehash
  split
  · exact .refl w s
  · exact steady_writeAdmin _ _ (le_refl _)

theorem rehash_next :
    (rehash s captured).next=s.next∧(rehash s captured).passwordVersion=s.passwordVersion := by
  unfold rehash
  split <;> exact ⟨rfl,rfl⟩

end

theorem createAdminSessionIfCredential_settles (hash : String) (verified : Bool)
    (captured : Option (CredentialSnapshot×Option String)) (now : ℕ)
    (ha : signsInByPassword a=true) :
    Settles w s a (createAdminSessionIfCredential w s hash verified captured now) := by
  unfold createAdminSessionIfCredential
  split
  · exact .refused
  · next hhas =>
    split
    · exact .refused
    split_ifs with hcur
    · exact .refused
    have hpro : Proved w s now (.password hash (captured.map fun c => c.1.epoch)) := by
      refine ⟨not_not.mp hhas,fun e he => ?_⟩
      obtain ⟨c,hc,rfl⟩ := Option.map_eq_some_iff.mp he
      have hsna : snapshotCurrent s c.1=true := by simpa [hc] using hcur
      simp only [snapshotCurrent,Bool.and_eq_true,decide_eq_true_eq] at hsna
      exact hsna.1.1
    obtain ⟨hnx,hver⟩ := rehash_next (s := s) captured
    rw [← hnx]
    exact .created (steady_rehash captured) hpro hver ha

theorem redeemLoginChallenge_settles (hinj : Function.Injective w.sha256)
    (hdig : ∀ c∈s.authChallenges, c.digest=credentialDigest w c.hash) (token : ℕ)
    (code : Code) (now : ℕ) (ha : signsInByPassword a=true) :
    Settles w s a (redeemLoginChallenge w s token code now) := by
  unfold redeemLoginChallenge
  cases hfd : s.authChallenges.find? (isLiveChallenge .loginTwoFactor token now) with
  | none => exact .refused
  | some claim =>
    have hcl := steady_claimAuthChallenge (w := w) (s := s) .loginTwoFactor token now
    dsimp only
    split
    · next hcur =>
      split
      · have hpro : Proved w s now (.password claim.hash (some claim.epoch)) := by
          simp only [challengeCurrent,Bool.and_eq_true,decide_eq_true_eq] at hcur
          rw [hdig claim (mem_of_find?_eq_some hfd)] at hcur
          exact ⟨(hinj hcur.1).symm,fun e he => Option.some.inj he ▸ hcur.2.symm⟩
        have hche := steady_verifySecondFactor (w := w)
          (s := claimAuthChallenge s .loginTwoFactor token now) (s.totp.map w.openTotp) code now
        obtain ⟨steps,codes,heq⟩ := verifySecondFactor_writes w
          (claimAuthChallenge s .loginTwoFactor token now) (s.totp.map w.openTotp) code now
        rw [heq] at hche ⊢
        exact .created (hcl.trans hche) hpro rfl ha
      · exact SignsNone.settles ⟨.refl w s,nofun⟩
    · exact SignsNone.settles ⟨hcl,nofun⟩

/-- Two accounts that differ in passkeys and ceremonies. -/
def SameTokens (s s' : Account) : Prop :=
  s'.sessions=s.sessions∧s'.next=s.next∧s'.authChallenges=s.authChallenges ∧
    s'.handoffCodes=s.handoffCodes∧s'.takenCodes=s.takenCodes ∧
    s'.recoveryCodes=s.recoveryCodes∧s'.usedSteps=s.usedSteps ∧
    s'.passwordVersion=s.passwordVersion∧s'.securityEpoch=s.securityEpoch ∧
    s'.passkeyReviewRequired=s.passkeyReviewRequired

theorem SameTokens.steady (h : SameTokens s s') : Steady w s s' := by
  obtain ⟨hses,hnx,haut,hcod,htk,hrec,hste,-,hepo,-⟩ := h
  exact .of_same hses hnx haut hcod htk hrec hste hepo

theorem SameTokens.refl (s : Account) : SameTokens s s := ⟨rfl,rfl,rfl,rfl,rfl,rfl,rfl,rfl,rfl,rfl⟩

variable {session epoch : Option ℕ}

theorem claimChallenge_same {kind : Ceremony} {challenge nonce now : ℕ}
    (h : claimChallenge s kind session epoch challenge nonce now=some s') :
    SameTokens s s'∧s'.passkeys=s.passkeys := by
  unfold claimChallenge at h
  split at h
  · cases h
    exact ⟨.refl s,rfl⟩
  · cases h

/-- The passkey under lock is a stored one of the current epoch. A refusal leaves
the account without the row of an older epoch. -/
theorem lockCredential_spec (s : Account) (id : ℕ) :
    SameTokens s (lockCredential s id).2∧((∃ p∈s.passkeys, p.id=id∧p.epoch=s.securityEpoch ∧
          lockCredential s id=(some p,s)) ∨
        ((lockCredential s id).1=none∧((lockCredential s id).2.passkeys=s.passkeys ∨
          (∃ p∈s.passkeys, p.epoch≠s.securityEpoch)))) := by
  unfold lockCredential
  cases hfd : s.passkeys.find? fun p => decide (p.id=id) with
  | none => exact ⟨.refl s,.inr ⟨rfl,.inl rfl⟩⟩
  | some p =>
    obtain ⟨hp,hid⟩ := find_key_eq_some Passkey.id hfd
    dsimp only
    split
    · next hepo => exact ⟨.refl s,.inl ⟨p,hp,hid,hepo,rfl⟩⟩
    · next hepo => exact ⟨.refl s,.inr ⟨rfl,.inr ⟨p,hp,hepo⟩⟩⟩

/-- The use of a passkey, accepted or refused. -/
inductive UsesPasskey (s : Account) (id : ℕ) : Except Account (Passkey×Account) → Prop
  /-- The passkey is a current one and only its counter moved. -/
  | accepted {p : Passkey} (counter : ℕ) : p∈s.passkeys→p.id=id →
      p.epoch=s.securityEpoch → UsesPasskey s id (.ok (p,setCounter s p.id counter))
  /-- Nothing moved, unless a passkey of an older epoch was deleted. -/
  | refused {s' : Account} : SameTokens s s' →
      (s'.passkeys=s.passkeys∨∃ p∈s.passkeys, p.epoch≠s.securityEpoch) →
      UsesPasskey s id (.error s')

theorem usePasskey_spec (s : Account) (a : Assertion) (check : Bool) :
    UsesPasskey s a.passkey (usePasskey s a check) := by
  obtain ⟨heq,⟨p,hp,hid,hepo,hlk⟩|⟨hno,hks⟩⟩ := lockCredential_spec s a.passkey
  · unfold usePasskey
    rw [hlk]
    dsimp only
    split
    · exact .refused (.refl s) (.inl rfl)
    · cases hver : verifyAssertion s a p with
      | none => exact .refused (.refl s) (.inl rfl)
      | some =>
        unfold verifyAssertion at hver
        split at hver
        · cases hver
        split at hver
        · cases hver
          exact .accepted _ hp hid hepo
        · cases hver
  · have hpai : lockCredential s a.passkey=(none,(lockCredential s a.passkey).2) :=
      Prod.ext hno rfl
    unfold usePasskey
    rw [hpai]
    exact .refused heq hks

theorem adminLoginVerify_settles (assertion : Assertion) (now : ℕ)
    (ha : signsInByPassword a=false) :
    Settles w s a (adminLoginVerify w s assertion now) := by
  unfold adminLoginVerify
  cases hcl : claimChallenge s .login none none assertion.challenge assertion.nonce now with
  | none => exact .refused
  | some claimed =>
    obtain ⟨heq,hks⟩ := claimChallenge_same hcl
    have hspe := usePasskey_spec claimed assertion true
    dsimp only
    generalize usePasskey claimed assertion true=outcome at hspe
    cases hspe with
    | refused hlf => exact SignsNone.settles ⟨heq.steady.trans hlf.steady,fun _ h => by cases h⟩
    | accepted _ hp _ hepo =>
      obtain ⟨-,-,-,-,-,-,-,hver,hkp,-⟩ := id heq
      refine .created (heq.steady.trans (.of_same rfl rfl rfl rfl rfl rfl rfl rfl)) ?_ hver ha
      exact ⟨(hepo.trans hkp).symm,_,hks ▸ hp,rfl,rfl⟩

theorem issueHandoffCode_follows (p : Principal) (ask : Authorize) (now : ℕ) :
    Follows w s a (issueHandoffCode w s p ask now).1
      (issueHandoffCode w s p ask now).2 := by
  unfold issueHandoffCode
  split
  · exact Settles.refused.1
  split
  · exact Settles.refused.1
  refine Follows.kept {Keeps.refl w s with
    next := Nat.le_succ _, challenges := ?_, codes := ?_, recovery := ?_, distinctCodes := ?_} nofun
  · exact (Steady.of_drawn (Nat.le_succ s.next)).challenges
  · intro c hc
    rcases mem_append.mp hc with hsto|htk
    · rcases mem_concat_iff.mp hsto with hold|rfl
      · exact .inl ⟨c,mem_append_left _ (mem_deleteWhere.mp hold).1,rfl⟩
      · exact .inr ⟨le_refl _,Nat.lt_succ_self _⟩
    · exact .inl ⟨c,mem_append_right _ htk,rfl⟩
  · exact (Steady.of_drawn (w := w) (Nat.le_succ s.next)).recovery
  · intro hlt h
    have hne : ∀ c∈allCodes s, c.code≠s.next := fun c hc => (hlt c hc).ne
    simp only [allCodes,map_append,nodup_append'] at h ⊢
    refine ⟨⟨nodup_map_deleteWhere HandoffCode.code h.1,by simp,?_⟩,h.2.1,?_⟩
    · rw [disjoint_right]
      intro code hcod hin
      obtain ⟨c,hc,rfl⟩ := mem_map.mp hin
      rw [map_cons,map_nil,mem_singleton] at hcod
      exact hne c (mem_append_left _ (mem_deleteWhere.mp hc).1) hcod
    · intro code hcod hin
      rcases mem_append.mp hcod with hold|hnew
      · exact disjoint_left.mp h.2.2 (((sublist_map_deleteWhere _ _).subset) hold) hin
      · rw [map_cons,map_nil,mem_singleton] at hnew
        obtain ⟨c,hc,hcod'⟩ := mem_map.mp hin
        exact hne c (mem_append_right _ hc) (hcod'.trans hnew)

variable {stored taken : List HandoffCode}

theorem Keeps.of_codes (h : ∀ c∈stored++taken, c∈allCodes s)
    (hdis : ((allCodes s).map HandoffCode.code).Nodup →
      ((stored++taken).map HandoffCode.code).Nodup) :
    Keeps w s {s with handoffCodes := stored,takenCodes := taken} :=
  {Keeps.refl w s with
    codes := fun c hc => .inl ⟨c,h c hc,rfl⟩
    distinctCodes := fun _ => hdis}

theorem nodup_moved {hit : HandoffCode → Bool} {row : HandoffCode}
    (h : ((stored++taken).map HandoffCode.code).Nodup) (hrow : row∈stored) (hhit : hit row=true) :
    ((deleteWhere hit stored++(taken++[row])).map HandoffCode.code).Nodup := by
  have hall : ((deleteWhere hit stored++taken).map HandoffCode.code).Nodup :=
    h.sublist ((filter_sublist.append (List.Sublist.refl _)).map HandoffCode.code)
  rw [← append_assoc]
  refine nodup_map_append HandoffCode.code hall fun c hc hcod => ?_
  have heq : c=row := by
    refine eq_of_key_eq HandoffCode.code h ?_ (mem_append_left _ hrow) hcod
    rcases mem_append.mp hc with hsto|htk
    · exact mem_append_left _ (mem_deleteWhere.mp hsto).1
    · exact mem_append_right _ htk
  subst heq
  rcases mem_append.mp hc with hsto|htk
  · rw [(mem_deleteWhere.mp hsto).2] at hhit
    cases hhit
  · rw [map_append,nodup_append'] at h
    exact disjoint_left.mp h.2.2 (mem_map_of_mem hrow) (mem_map_of_mem htk)

theorem takeHandoffCode_keeps (r : Redemption) (now : ℕ) :
    Keeps w s (takeHandoffCode w s r now).2 ∧
      ∀ t, (takeHandoffCode w s r now).1≠.signedIn t := by
  unfold takeHandoffCode
  split
  · exact ⟨.refl w s,nofun⟩
  split
  · exact ⟨.refl w s,nofun⟩
  dsimp only
  split
  · exact ⟨.refl w s,nofun⟩
  · next row hfd =>
    have hrow := mem_of_find?_eq_some hfd
    split
    · refine ⟨Keeps.of_codes (fun c hc => ?_) fun h => ?_,nofun⟩
      · rcases mem_append.mp hc with hsto|htk
        · exact mem_append_left _ (mem_deleteWhere.mp hsto).1
        rcases mem_concat_iff.mp htk with hold|rfl
        · exact mem_append_right _ hold
        · exact mem_append_left _ hrow
      · have hhit := List.find?_some (p := fun row : HandoffCode =>
          decide (row.code=r.code)&&decide (now<row.expiresAt)) hfd
        exact nodup_moved h hrow hhit
    · refine ⟨Keeps.of_codes (fun c hc => ?_) fun h => ?_,nofun⟩
      · rcases mem_append.mp hc with hsto|htk
        · exact mem_append_left _ (mem_deleteWhere.mp hsto).1
        · exact mem_append_right _ htk
      · exact h.sublist ((filter_sublist.append (List.Sublist.refl _)).map HandoffCode.code)

theorem steady_dropTaken (code : ℕ) :
    Steady w s {s with takenCodes := deleteWhere (fun row => decide (row.code=code)) s.takenCodes} := by
  refine {Keeps.of_codes (fun c hc => ?_) fun h => ?_ with
    stored := fun _ h => h, taken := fun _ h => (mem_deleteWhere.mp h).1,epoch := le_refl _}
  · rcases mem_append.mp hc with hsto|htk
    · exact mem_append_left _ hsto
    · exact mem_append_right _ (mem_deleteWhere.mp htk).1
  · exact h.sublist (((List.Sublist.refl _).append filter_sublist).map HandoffCode.code)

theorem redeemHandoffCode_settles (code now : ℕ) (ha : signsInByPassword a=false) :
    Settles w s a (redeemHandoffCode w s code now) := by
  unfold redeemHandoffCode
  split
  · exact .refused
  · next row _ =>
    split
    · next hcur =>
      obtain ⟨own,hown⟩ := Option.isSome_iff_exists.mp hcur.2
      have hlv := List.find?_some hown
      rw [Bool.and_eq_true,decide_eq_true_eq] at hlv
      have hpro : Proved w s now (.handoff row.sessionId row.epoch) :=
        ⟨hcur.1,own,mem_of_find?_eq_some hown,hlv.1,hlv.2⟩
      exact .created (steady_dropTaken code) hpro rfl ha
    · exact SignsNone.settles ⟨steady_dropTaken code,nofun⟩

theorem changeAdminPassword_signsNone (old new : String) (keep : ℕ) (captured : Option StepUpSnapshot)
    (now : ℕ) :
    SignsNone w s (changeAdminPassword w s old new keep captured now) := by
  unfold changeAdminPassword
  split
  · exact .refused
  split
  · exact .refused
  split
  · exact .refused
  split
  · exact .refused
  refine ⟨?_,nofun⟩
  have hver : Steady w (writeAdmin s new s.totp s.securityEpoch)
      {writeAdmin s new s.totp s.securityEpoch with
        passwordVersion := s.passwordVersion+1} :=
    Steady.of_same rfl rfl rfl rfl rfl rfl rfl rfl
  exact ((steady_writeAdmin _ _ (le_refl _)).trans hver).trans (steady_deleteSessions _)

theorem steady_resetCredentials (new : String) : Steady w s (resetCredentials s new) := by
  have hdel : Steady w s
      (deleteSessions (writeAdmin s new s.totp (s.securityEpoch+1)) fun _ => true) :=
    (steady_writeAdmin _ _ (Nat.le_succ _)).trans (steady_deleteSessions _)
  have hdro : Descends (fun _ => False) KeepsChallenge s.authChallenges
      (deleteWhere (fun c => !c.consumed) s.authChallenges) :=
    descends_deleteWhere fun _ => ⟨rfl,rfl,rfl,id⟩
  exact {hdel with
    challenges := hdro.mono fun _ h => h.elim
    distinct := fun _ h => nodup_map_deleteWhere AuthChallenge.token h}

theorem redeemPasswordReset_signsNone (token : ℕ) (new : String) (now : ℕ) :
    SignsNone w s (redeemPasswordReset w s token new now) := by
  unfold redeemPasswordReset
  split
  · exact .refused
  split
  · exact ⟨(steady_claimAuthChallenge _ _ _).trans (steady_resetCredentials _),nofun⟩
  · exact ⟨steady_claimAuthChallenge _ _ _,nofun⟩

theorem markStepUp_settles (hrev : s.passkeyReviewRequired=false) (token : ℕ) (hash : String)
    (captured : CredentialSnapshot) (now : ℕ) (ha : stampOf a=some (token,now)) :
    Settles w s a (markStepUpVerifiedIfCurrent w s token hash captured now) := by
  unfold markStepUpVerifiedIfCurrent
  split
  · exact .refused
  split
  · exact .refused
  · next hcur =>
    split
    · exact .refused
    have hepo : captured.epoch=s.securityEpoch := by
      simp only [snapshotCurrent,Bool.not_eq_true',Bool.not_eq_false,Bool.and_eq_true,
        decide_eq_true_eq] at hcur
      exact hcur.1.1.symm
    rw [hepo]
    exact .stamped (.refl w s) hrev ha

theorem adminStepUpVerify_settles (hrev : s.passkeyReviewRequired=false) (token : ℕ)
    (assertion : Assertion) (now : ℕ) (ha : stampOf a=some (token,now)) :
    Settles w s a (adminStepUpVerify w s token assertion now) := by
  unfold adminStepUpVerify
  split
  · exact .refused
  · cases hcl : claimChallenge s .stepUp (some token) (some s.securityEpoch)
      assertion.challenge assertion.nonce now with
    | none => exact .refused
    | some claimed =>
      have heq := (claimChallenge_same hcl).1
      have hspe := usePasskey_spec claimed assertion false
      dsimp only
      generalize usePasskey claimed assertion false=outcome at hspe
      cases hspe with
      | refused hlf =>
        exact SignsNone.settles ⟨heq.steady.trans hlf.steady,fun _ h => by cases h⟩
      | accepted =>
        exact .stamped (heq.steady.trans (.of_same rfl rfl rfl rfl rfl rfl rfl rfl)) hrev ha

theorem steady_enableTotp (token : ℕ) (stored : String) (codes : List String) :
    Steady w s (enableTotp s token stored codes) := by
  have hcar : Steady w s {writeAdmin s s.passwordHash (some stored) s.securityEpoch with
        passkeys := restamp s.passkeys s.securityEpoch
          (writeAdmin s s.passwordHash (some stored) s.securityEpoch).securityEpoch} :=
    (steady_writeAdmin s.passwordHash (some stored) (le_refl _)).trans
      (.of_same rfl rfl rfl rfl rfl rfl rfl rfl)
  exact (hcar.trans (steady_deleteSessions _)).trans (steady_regenerateRecoveryCodes _)

theorem steady_disableTotp : Steady w s (disableTotp s) := by
  unfold disableTotp
  split
  · exact (steady_writeAdmin s.passwordHash none (le_refl _)).trans
      (.of_recovery nofun (nil_sublist _))
  · exact (steady_writeAdmin s.passwordHash none (le_refl _)).trans
      (.of_same rfl rfl rfl rfl rfl rfl rfl rfl)

theorem mutateAdminSecondFactor_signsNone (i : FactorChange) (now : ℕ) :
    SignsNone w s (mutateAdminSecondFactor w s i now) := by
  unfold mutateAdminSecondFactor
  split
  · exact .refused
  split
  · exact .refused
  split
  · exact .refused
  split
  · exact .refused
  · cases i.action with
    | disable =>
      dsimp only
      split
      · exact .refused
      split
      · exact .refused
      · exact ⟨(steady_verifySecondFactor _ _ _).trans steady_disableTotp,fun _ h => by cases h⟩
    | enable =>
      cases i.secret with
      | none => exact .refused
      | some =>
        dsimp only
        split
        · exact .refused
        · exact ⟨steady_enableTotp _ _ _,fun _ h => by cases h⟩
    | recovery =>
      dsimp only
      split
      · exact .refused
      · exact ⟨steady_regenerateRecoveryCodes _,nofun⟩

theorem steady_storePasskey (token : ℕ) (credentialId : String) (counter : ℕ) (codes : List String) :
    Steady w s (storePasskey s token credentialId counter codes) := by
  have hsto : Steady w s {s with
      passkeys := s.passkeys++[⟨s.next,credentialId,counter,s.securityEpoch⟩]
      next := s.next+1} :=
    (Steady.of_drawn (Nat.le_succ s.next)).trans (Steady.of_same rfl rfl rfl rfl rfl rfl rfl rfl)
  unfold storePasskey
  split
  · exact (hsto.trans (steady_regenerateRecoveryCodes _)).trans (steady_deleteSessions _)
  · exact hsto

theorem adminRegisterVerify_signsNone (token : ℕ) (r : Registration) (now : ℕ) :
    SignsNone w s (adminRegisterVerify w s token r now) := by
  unfold adminRegisterVerify
  split
  · exact .refused
  · cases hcl : claimChallenge s .register (some token) (some s.securityEpoch) r.challenge r.nonce
      now with
    | none => exact .refused
    | some claimed =>
      have hcla : Steady w s claimed := steady_claimChallenge hcl
      cases r.credential with
      | none => exact ⟨hcla,fun _ h => by cases h⟩
      | some =>
        dsimp only
        split
        · exact ⟨hcla,nofun⟩
        · exact ⟨hcla.trans (steady_storePasskey _ _ _ _),nofun⟩

theorem steady_dropPasskey (id : ℕ) : Steady w s (dropPasskey s id) :=
  Steady.of_sessions (descends_clearStepUps _) (clearStepUps_tokens _) rfl rfl rfl rfl rfl rfl (le_refl _)

theorem deleteAdminPasskey_signsNone (id : ℕ) (required : Bool) :
    SignsNone w s (deleteAdminPasskey s id required) := by
  unfold deleteAdminPasskey
  split
  · exact .refused
  dsimp only
  split
  · split
    · exact .refused
    · exact ⟨(steady_dropPasskey id).trans (.of_recovery nofun (nil_sublist _)),nofun⟩
  · exact ⟨steady_dropPasskey id,nofun⟩

theorem completePasskeyReview_signsNone (hash : String) (keep : List ℕ) :
    SignsNone w s (completePasskeyReview s hash keep) := by
  unfold completePasskeyReview
  split
  · exact .refused
  refine ⟨?_,nofun⟩
  dsimp only
  split
  · have hno : Steady w s {s with recoveryCodes := []} :=
      Steady.of_recovery nofun (nil_sublist _)
    exact hno.trans (.of_same rfl rfl rfl rfl rfl rfl rfl rfl)
  · exact .of_same rfl rfl rfl rfl rfl rfl rfl rfl

theorem resolveAdmin_signsNone (token now : ℕ) :
    SignsNone w s (resolveAdmin w s token now) := by
  unfold resolveAdmin
  split
  · exact .refused
  split
  · refine ⟨.of_sessions ?_ ?_ rfl rfl rfl rfl rfl rfl (le_refl _),nofun⟩
    · exact descends_updateWhere KeepsSession.refl fun _ _ _ => ⟨rfl,rfl,rfl,rfl,rfl,.inr ⟨rfl,rfl⟩⟩
    · exact sublist_map_updateWhere (f := fun x : Session => {x with lastSeenAt := some now})
        Session.token (fun _ => rfl) _
  · exact ⟨steady_deleteSessions _,nofun⟩

theorem rehashIfUnchanged_signsNone (old new : String) :
    SignsNone w s (rehashAdminPasswordIfUnchanged s old new) := by
  unfold rehashAdminPasswordIfUnchanged
  split
  · exact .refused
  · exact ⟨steady_writeAdmin _ _ (le_refl _),nofun⟩

theorem attemptLoginChallenge_signsNone (token now : ℕ) :
    SignsNone w s (attemptLoginChallenge s token now) := by
  unfold attemptLoginChallenge
  dsimp only
  split
  · refine ⟨.of_challenges ?_ ?_,nofun⟩
    · exact descends_updateWhere (fun _ => ⟨rfl,rfl,rfl,id⟩) fun _ _ _ => ⟨rfl,rfl,rfl,id⟩
    · exact sublist_map_updateWhere
        (f := fun c : AuthChallenge => {c with attempts := c.attempts+1}) AuthChallenge.token
        (fun _ => rfl) _
  · exact .refused

theorem verifyLoginFactor_not_signedIn (secret : Option String) (code : Code) (now : ℕ) :
    ∀ t, (verifyLoginFactor w s secret code now).1≠.signedIn t := by
  intro t h
  unfold verifyLoginFactor at h
  split at h
  · split at h
    · cases h
    · dsimp only at h
      split at h <;> cases h
  · split at h <;> cases h
  · cases h

theorem ceremony_signsNone {refuse : Bool} {kind : Ceremony} {now : ℕ} :
    SignsNone w s (if refuse then (.refused,s) else issueCeremony s kind session epoch now) := by
  split
  · exact .refused
  · exact ⟨steady_issueCeremony _ _ _ _,nofun⟩

/-- The step stores or takes a handoff code. -/
def movesCodes : Action → Bool
  | .issueHandoffCode _ _ _ | .takeHandoffCode _ _ => true
  | _ => false

section
variable (hinj : Function.Injective w.sha256)
  (hdig : ∀ c∈s.authChallenges, c.digest=credentialDigest w c.hash)
include hinj hdig

/-- What every step does that moves no code. -/
theorem step_settles (a : Action) (ha : movesCodes a=false) : Settles w s a (step w s a) := by
  have hrev : ∀ {out : Answer×Account}, SignsNone w s out → Settles w s a (underReview s out) :=
    fun h => settles_underReview fun _ => h.settles
  cases a with
  | createAdminSessionIfCredential hash verified captured now =>
    exact createAdminSessionIfCredential_settles hash verified captured now rfl
  | rehashAdminPasswordIfUnchanged old new => exact (rehashIfUnchanged_signsNone old new).settles
  | verifyLoginFactor secret code now =>
    exact SignsNone.settles ⟨steady_verifyLoginFactor secret code now,
      verifyLoginFactor_not_signedIn secret code now⟩
  | issueLoginChallenge | issuePasswordReset =>
    exact SignsNone.settles ⟨steady_issueChallenge _ _ _ _,fun _ h => by cases h⟩
  | attemptLoginChallenge token now => exact (attemptLoginChallenge_signsNone token now).settles
  | redeemLoginChallenge token code now =>
    exact redeemLoginChallenge_settles hinj hdig token code now rfl
  | adminLoginOptions =>
    exact SignsNone.settles ⟨steady_issueCeremony _ _ _ _,fun _ h => by cases h⟩
  | adminLoginVerify assertion now => exact adminLoginVerify_settles assertion now rfl
  | issueHandoffCode | takeHandoffCode => cases ha
  | redeemHandoffCode code now => exact redeemHandoffCode_settles code now rfl
  | changeAdminPassword old new keep captured now =>
    exact hrev (changeAdminPassword_signsNone old new keep captured now)
  | redeemPasswordReset token new now => exact (redeemPasswordReset_signsNone token new now).settles
  | markStepUpVerifiedIfCurrent token hash captured now =>
    exact settles_underReview fun hrev => markStepUp_settles hrev token hash captured now rfl
  | adminStepUpOptions => exact hrev ceremony_signsNone
  | adminStepUpVerify token assertion now =>
    exact settles_underReview fun hrev => adminStepUpVerify_settles hrev token assertion now rfl
  | mutateAdminSecondFactor change now => exact hrev (mutateAdminSecondFactor_signsNone change now)
  | adminRegisterOptions =>
    refine hrev ?_
    unfold adminRegisterOptions
    split
    · exact .refused
    · split
      · exact .refused
      · exact ⟨steady_issueCeremony _ _ _ _,fun _ h => by cases h⟩
  | adminRegisterVerify token r now => exact hrev (adminRegisterVerify_signsNone token r now)
  | deleteAdminPasskey id required => exact (deleteAdminPasskey_signsNone id required).settles
  | completePasskeyReview hash keep => exact (completePasskeyReview_signsNone hash keep).settles
  | deleteAdminSession | revokeOtherAdminSessions =>
    exact SignsNone.settles ⟨steady_deleteSessions _,fun _ h => by cases h⟩
  | resolveAdmin token now => exact (resolveAdmin_signsNone token now).settles

/-- What every step does to the sessions. -/
theorem step_follows (a : Action) : Follows w s a (step w s a).1 (step w s a).2 := by
  cases ha : movesCodes a with
  | false => exact (step_settles hinj hdig a ha).1
  | true =>
    cases a with
    | issueHandoffCode p ask now =>
      simp only [step,underReview]
      split
      · exact Settles.refused.1
      · exact issueHandoffCode_follows p ask now
    | takeHandoffCode r now =>
      exact .kept (takeHandoffCode_keeps r now).1 (takeHandoffCode_keeps r now).2
    | _ => cases ha

end

end SellRight.AdminSessionSteps
