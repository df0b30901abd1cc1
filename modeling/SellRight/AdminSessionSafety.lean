import SellRight.AdminSessionSteps

/-!
# Admin sessions follow credentials

Over every run, whatever happens between the moment a proof is captured and the
moment it is committed: a password change leaves the one session that made it, a
reset leaves none, a new session rests on a proof of the credentials that are
current when it is created, and no token, code or time step is spent twice.
-/

namespace SellRight.AdminSessionSafety

open RowTable RowDescent RunHistory AdminAccount AdminSignIn AdminCredentials AdminTokens List
open AdminSessionSteps

variable {w : World} {s s' : Account} {a : Action}

/-- Random values are distinct and drawn, and sign-in tokens carry the digest of
the hash they were issued for. -/
structure Sound (w : World) (s : Account) : Prop where
  tokens : (s.sessions.map Session.token).Nodup
  drawn : ∀ x∈s.sessions, x.token<s.next
  challengeTokens : (s.authChallenges.map AuthChallenge.token).Nodup
  challengesDrawn : ∀ c∈s.authChallenges, c.token<s.next
  digests : ∀ c∈s.authChallenges, c.digest=credentialDigest w c.hash
  codes : ((allCodes s).map HandoffCode.code).Nodup
  codesDrawn : ∀ c∈allCodes s, c.code<s.next
  recoveryDrawn : ∀ c∈s.recoveryCodes, c.id<s.next
  recoveryIds : (s.recoveryCodes.map RecoveryCode.id).Nodup

theorem Sound.keep (hsd : Sound w s) (h : Keeps w s s') : Sound w s' where
  tokens := hsd.tokens.sublist h.tokens
  drawn := h.sessions.forall hsd.drawn
    (fun _ _ hkp hold => hkp.token ▸ hold.trans_le h.next) fun _ hnew => hnew.elim
  challengeTokens := h.distinct hsd.challengesDrawn hsd.challengeTokens
  challengesDrawn := h.challenges_lt hsd.challengesDrawn
  digests := h.challenges.forall hsd.digests
    (fun _ _ hkp hold => hkp.2.1.trans (hold.trans (congrArg _ hkp.2.2.1.symm)))
    fun _ hnew => hnew.2.2
  codes := h.distinctCodes hsd.codesDrawn hsd.codes
  codesDrawn := h.codes_lt hsd.codesDrawn
  recoveryDrawn := h.recovery.forall hsd.recoveryDrawn
    (fun _ _ hkp hold => hkp.1 ▸ hold.trans_le h.next) fun _ hnew => hnew.2
  recoveryIds := h.distinctRecovery hsd.recoveryIds

/-- A created session keeps the account sound. -/
theorem Sound.insert (hsd : Sound w s) (client : Option String) (proof : Proof) (now : ℕ) :
    Sound w (insertSession w s client proof now) := by
  refine {hsd.keep (Steady.of_drawn (Nat.le_succ s.next)).toKeeps with tokens := ?_,drawn := ?_}
  · exact nodup_map_append Session.token hsd.tokens fun x hx => (hsd.drawn x hx).ne
  intro x hx
  rcases mem_append.mp hx with hold|hnew
  · exact (hsd.drawn x hold).trans (Nat.lt_succ_self _)
  · cases mem_singleton.mp hnew
    exact Nat.lt_succ_self _

theorem Sound.stamp (hsd : Sound w s) (token epoch now : ℕ) :
    Sound w (stampStepUp s token epoch now) := by
  refine {hsd with tokens := ?_,drawn := ?_}
  · exact nodup_map_updateWhere Session.token (fun _ => rfl) hsd.tokens
  intro x hx
  rcases mem_updateWhere.mp hx with ⟨old,hold,-,rfl⟩|⟨hold,-⟩
  · exact hsd.drawn old hold
  · exact hsd.drawn x hold

section
variable (hinj : Function.Injective w.sha256) (hsd : Sound w s) (a : Action)
include hinj hsd

theorem step_sound :
    Sound w (step w s a).2 := by
  have hfol := step_follows hinj hsd.digests a
  generalize (step w s a).1=answer at hfol
  generalize (step w s a).2=s' at hfol
  cases hfol with
  | kept hkee => exact hsd.keep hkee
  | created hkee => exact (hsd.keep hkee).insert _ _ _
  | stamped hkee => exact (hsd.keep hkee).stamp _ _ _

/-- What a step adds to what it keeps draws and unspends nothing. -/
theorem step_spent :
    ∃ mid, Keeps w s mid∧mid.next≤(step w s a).2.next ∧
      (step w s a).2.authChallenges=mid.authChallenges∧allCodes (step w s a).2=allCodes mid ∧
      (step w s a).2.recoveryCodes=mid.recoveryCodes∧(step w s a).2.usedSteps=mid.usedSteps := by
  have hfol := step_follows hinj hsd.digests a
  generalize (step w s a).1=answer at hfol
  generalize (step w s a).2=s' at hfol
  cases hfol with
  | kept hkee => exact ⟨_,hkee,le_refl _,rfl,rfl,rfl,rfl⟩
  | created hkee => exact ⟨_,hkee,Nat.le_succ _,rfl,rfl,rfl,rfl⟩
  | stamped hkee => exact ⟨_,hkee,le_refl _,rfl,rfl,rfl,rfl⟩

end

/-- No sign-in token of this value can be claimed any more. -/
def ChallengeSpent (token : ℕ) (s : Account) : Prop :=
  token<s.next∧∀ c∈s.authChallenges, c.token=token→c.consumed=true

/-- No handoff code of this value is left. -/
def CodeSpent (code : ℕ) (s : Account) : Prop := code<s.next∧∀ c∈allCodes s, c.code≠code

/-- No recovery code of this row can be used any more. -/
def RecoverySpent (id : ℕ) (s : Account) : Prop :=
  id<s.next∧∀ c∈s.recoveryCodes, c.id=id→c.usedAt≠none

/-- A time step no earlier than this was accepted. -/
def StepPassed (k : ℕ) (s : Account) : Prop := ∃ j∈s.usedSteps, k≤j

instance (token : ℕ) (s : Account) : Decidable (ChallengeSpent token s) := by
  unfold ChallengeSpent; infer_instance

instance (code : ℕ) (s : Account) : Decidable (CodeSpent code s) := by
  unfold CodeSpent; infer_instance

instance (id : ℕ) (s : Account) : Decidable (RecoverySpent id s) := by
  unfold RecoverySpent; infer_instance

instance (k : ℕ) (s : Account) : Decidable (StepPassed k s) := by
  unfold StepPassed; infer_instance

/-- A step unspends nothing. -/
theorem step_stays_spent (hinj : Function.Injective w.sha256) (hsd : Sound w s) (a : Action)
    (n : ℕ) :
    (ChallengeSpent n s → ChallengeSpent n (step w s a).2) ∧
      (CodeSpent n s → CodeSpent n (step w s a).2) ∧
      (RecoverySpent n s → RecoverySpent n (step w s a).2) ∧
      (StepPassed n s → StepPassed n (step w s a).2) := by
  obtain ⟨mid,hkee,hnx,hcha,hcod,hrec,hste⟩ := step_spent hinj hsd a
  refine ⟨?_,?_,?_,?_⟩
  · rintro ⟨hlt,hsp⟩
    refine ⟨hlt.trans_le (hkee.next.trans hnx),?_⟩
    rw [hcha]
    refine hkee.challenges.forall hsp ?_ ?_
    · rintro c c' ⟨htok,-,-,huse⟩ hold hc'
      exact huse (hold (htok.symm.trans hc'))
    · rintro c ⟨hle,-⟩ rfl
      omega
  · rintro ⟨hlt,hsp⟩
    refine ⟨hlt.trans_le (hkee.next.trans hnx),?_⟩
    rw [hcod]
    refine hkee.codes.forall hsp (fun c c' heq hold => heq ▸ hold) ?_
    rintro c ⟨hle,-⟩ rfl
    omega
  · rintro ⟨hlt,hsp⟩
    refine ⟨hlt.trans_le (hkee.next.trans hnx),?_⟩
    rw [hrec]
    refine hkee.recovery.forall hsp ?_ ?_
    · rintro c c' ⟨hid,huse⟩ hold hc'
      exact huse (hold (hid.symm.trans hc'))
    · rintro c ⟨hle,-⟩ rfl
      omega
  · rintro ⟨j,hj,hle⟩
    obtain ⟨i,hi,hji⟩ := hkee.steps j hj
    exact ⟨i,hste ▸ hi,hle.trans hji⟩

theorem reached_once {start : Account} {h : List (Event Account Action Answer)}
    (hinj : Function.Injective w.sha256) (hsta : Sound w start)
    (hrun : Run (step w) (fun _ _ _ => True) start h s) {P : Account → Prop} [DecidablePred P]
    (hkp : ∀ s a, Sound w s → P s → P (step w s a).2)
    {q : Event Account Action Answer → Bool}
    (hrea : ∀ s a, Sound w s→q (perform (step w) s a)=true→¬ P s∧P (step w s a).2) :
    h.countP q≤1 := by
  have hct := (Run.countP_le (P := Sound w) (μ := fun s => if P s then 1 else 0) (q := q) hrun
    hsta ?_).2
  · have hle : (if P s then 1 else 0)≤1 := by split <;> omega
    omega
  · intro _ s a hsd _
    refine ⟨step_sound hinj hsd a,?_,?_⟩
    · by_cases hP : P s
      · simp [hP,hkp s a hsd hP]
      · simp [hP]
    · intro hq
      obtain ⟨hbef,haft⟩ := hrea s a hsd hq
      simp [hbef,haft]

/-- The answer is a new session. -/
def isSignedIn : Answer → Bool
  | .signedIn _ => true
  | _ => false

/-- The event turns a sign-in token into a session. -/
def redeems (token : ℕ) (e : Event Account Action Answer) : Bool :=
  match e.action with
  | .redeemLoginChallenge t _ _ => decide (t=token)&&isSignedIn e.result
  | _ => false

/-- The event turns a handoff code into a session. -/
def mints (code : ℕ) (e : Event Account Action Answer) : Bool :=
  match e.action with
  | .redeemHandoffCode c _ => decide (c=code)&&isSignedIn e.result
  | _ => false

def spends (id : ℕ) (e : Event Account Action Answer) : Bool :=
  e.before.recoveryCodes.any (fun c => decide (c.id=id)&&decide (c.usedAt=none)) &&
    e.after.recoveryCodes.any fun c => decide (c.id=id)&&decide (c.usedAt≠none)

/-- The event accepts a time step of the authenticator. -/
def accepts (k : ℕ) (e : Event Account Action Answer) : Bool :=
  decide (k∉e.before.usedSteps)&&decide (k∈e.after.usedSteps)

variable {token : ℕ}
variable {now : ℕ}

theorem redeemLoginChallenge_claims {code : Code}
    (h : isSignedIn (redeemLoginChallenge w s token code now).1=true) :
    (∃ c∈s.authChallenges, c.token=token∧c.consumed=false ∧
      isLiveChallenge .loginTwoFactor token now c=true) ∧
    (redeemLoginChallenge w s token code now).2.authChallenges =
      updateWhere (isLiveChallenge .loginTwoFactor token now)
        (fun c => {c with consumed := true}) s.authChallenges := by
  unfold redeemLoginChallenge at h ⊢
  cases hfd : s.authChallenges.find? (isLiveChallenge .loginTwoFactor token now) with
  | none => simp [hfd,isSignedIn] at h
  | some claim =>
    have hlv := List.find?_some hfd
    have hfie := hlv
    simp only [isLiveChallenge,Bool.and_eq_true,decide_eq_true_eq,Bool.not_eq_true'] at hfie
    rw [hfd] at h
    dsimp only at h ⊢
    refine ⟨⟨claim,mem_of_find?_eq_some hfd,hfie.1.1.1,hfie.1.2,hlv⟩,?_⟩
    split at h
    · next hcur =>
      split at h
      · next hok =>
        rw [if_pos hcur,if_pos hok]
        obtain ⟨steps,codes,heq⟩ := verifySecondFactor_writes w
          (claimAuthChallenge s .loginTwoFactor token now) (s.totp.map w.openTotp) code now
        rw [heq]
        rfl
      · cases h
    · cases h

section
variable (hinj : Function.Injective w.sha256)
include hinj

section
variable (hsd : Sound w s) (a : Action)
include hsd

/-- A redeemed sign-in token was unclaimed and is claimed. -/
theorem redeems_reaches (hq : redeems token (perform (step w) s a)=true) :
    ¬ ChallengeSpent token s∧ChallengeSpent token (step w s a).2 := by
  unfold redeems at hq
  cases a with
  | redeemLoginChallenge t code now =>
    simp only [perform,step,Bool.and_eq_true,decide_eq_true_eq] at hq
    obtain ⟨rfl,hres⟩ := hq
    obtain ⟨⟨claim,hcl,htok,hop,hlv⟩,hrs⟩ := redeemLoginChallenge_claims hres
    obtain ⟨mid,hkee,hnx,-⟩ := step_spent hinj hsd (.redeemLoginChallenge t code now)
    refine ⟨fun hsp => ?_,?_,?_⟩
    · rw [hsp.2 claim hcl htok] at hop
      cases hop
    · exact (htok ▸ hsd.challengesDrawn claim hcl).trans_le (hkee.next.trans hnx)
    · intro c hc hc'
      simp only [step,hrs] at hc
      rcases mem_updateWhere.mp hc with ⟨old,-,-,rfl⟩|⟨hold,hms⟩
      · rfl
      · cases eq_of_key_eq AuthChallenge.token hsd.challengeTokens hold hcl
          (hc'.trans htok.symm)
        rw [hlv] at hms
        cases hms
  | _ => cases hq

/-- A redeemed handoff code was taken and is gone. -/
theorem mints_reaches {code : ℕ} (hq : mints code (perform (step w) s a)=true) :
    ¬ CodeSpent code s∧CodeSpent code (step w s a).2 := by
  unfold mints at hq
  cases a with
  | redeemHandoffCode c now =>
    simp only [perform,step,Bool.and_eq_true,decide_eq_true_eq] at hq
    obtain ⟨rfl,hres⟩ := hq
    obtain ⟨mid,hkee,hnx,-⟩ := step_spent hinj hsd (.redeemHandoffCode c now)
    have hlat := hkee.next.trans hnx
    simp only [step] at hlat ⊢
    unfold redeemHandoffCode at hres hlat ⊢
    cases hfd : s.takenCodes.find? fun row => decide (row.code=c) with
    | none => simp [hfd,isSignedIn] at hres
    | some row =>
      obtain ⟨hrow,hcod⟩ := find_key_eq_some HandoffCode.code hfd
      have hmem : row∈allCodes s := mem_append_right _ hrow
      rw [hfd] at hres hlat
      dsimp only at hres hlat ⊢
      split at hres
      · next hcur =>
        rw [if_pos hcur] at hlat ⊢
        refine ⟨fun hsp => hsp.2 row hmem hcod,(hcod ▸ hsd.codesDrawn row hmem).trans_le hlat,?_⟩
        intro other hot heq
        have hnod := hsd.codes
        rw [allCodes,map_append,nodup_append'] at hnod
        rcases mem_append.mp hot with hsto|htk
        · exact disjoint_left.mp hnod.2.2 (mem_map_of_mem hsto)
            (mem_map.mpr ⟨row,hrow,hcod.trans heq.symm⟩)
        · exact absurd heq (by simpa using (mem_deleteWhere.mp htk).2)
      · cases hres
  | _ => cases hq

/-- A recovery code that was spent was unused and is used. -/
theorem spends_reaches {id : ℕ} (hq : spends id (perform (step w) s a)=true) :
    ¬ RecoverySpent id s∧RecoverySpent id (step w s a).2 := by
  simp only [spends,perform,Bool.and_eq_true,any_eq_true,decide_eq_true_eq] at hq
  obtain ⟨⟨c,hc,hid,hunu⟩,d,hd,hid',huse⟩ := hq
  have hsd' := step_sound hinj hsd a
  refine ⟨fun hsp => hsp.2 c hc hid hunu,hid' ▸ hsd'.recoveryDrawn d hd,?_⟩
  intro other hot heq
  cases eq_of_key_eq RecoveryCode.id hsd'.recoveryIds hot hd (heq.trans hid'.symm)
  exact huse

/-- An accepted time step is later than every earlier one. -/
theorem accepts_reaches {k : ℕ} (hq : accepts k (perform (step w) s a)=true) :
    ¬ StepPassed k s∧StepPassed k (step w s a).2 := by
  rw [accepts,Bool.and_eq_true] at hq
  have hbef : k∉s.usedSteps := of_decide_eq_true hq.1
  have haft : k∈(step w s a).2.usedSteps := of_decide_eq_true hq.2
  obtain ⟨mid,hkee,-,-,-,-,hste⟩ := step_spent hinj hsd a
  refine ⟨?_,k,haft,le_refl k⟩
  rintro ⟨j,hj,hle⟩
  rcases hkee.newSteps k (hste ▸ haft) with hold|hlat
  · exact hbef hold
  · have := hlat j hj
    omega

end

end

theorem map_token_deleteWhere {rows : List Session} (hnod : (rows.map Session.token).Nodup)
    {own : Session} (hown : own∈rows) :
    (deleteWhere (fun x => decide (x.token≠own.token)) rows).map Session.token=[own.token] := by
  have hsel : deleteWhere (fun x => decide (x.token≠own.token)) rows =
      rows.filter fun x => decide (x.token=own.token) := filter_congr fun x _ => by simp
  rw [hsel,filter_key_eq_find Session.token _ hnod,find_key_self Session.token hnod hown]
  rfl

theorem writeAdmin_tokens (hash : String) (totp : Option String) (epoch : ℕ) :
    (writeAdmin s hash totp epoch).sessions.map Session.token=s.sessions.map Session.token := by
  simp only [writeAdmin]
  split
  · exact map_updateWhere Session.token s.sessions fun _ _ => rfl
  · rfl

theorem changeAdminPassword_sessions (hsd : Sound w s) {old new : String} {keep : ℕ}
    {captured : Option StepUpSnapshot}
    (hdn : (changeAdminPassword w s old new keep captured now).1≠.refused) :
    (∃ own∈s.sessions, own.token=keep∧isLive w now own=true) ∧
      (changeAdminPassword w s old new keep captured now).2.sessions.map
        Session.token=[keep] := by
  unfold changeAdminPassword at hdn ⊢
  split at hdn
  · exact absurd rfl hdn
  · next hhas =>
    split at hdn
    · exact absurd rfl hdn
    · next hsna =>
      rw [if_neg hhas,if_neg hsna]
      cases hfd : liveSession w s keep now with
      | none =>
        rw [hfd] at hdn
        exact absurd rfl hdn
      | some own =>
        rw [hfd] at hdn
        dsimp only at hdn ⊢
        split at hdn
        · exact absurd rfl hdn
        · next hstep =>
          rw [if_neg hstep]
          have hlv := List.find?_some hfd
          rw [Bool.and_eq_true,decide_eq_true_eq] at hlv
          obtain ⟨rfl,hlv⟩ := hlv
          have hown := mem_of_find?_eq_some hfd
          refine ⟨⟨own,hown,rfl,hlv⟩,?_⟩
          have htok := writeAdmin_tokens (s := s) new s.totp s.securityEpoch
          have hkp : own.token ∈
              (writeAdmin s new s.totp s.securityEpoch).sessions.map Session.token :=
            htok ▸ mem_map_of_mem hown
          obtain ⟨own',hown',heq⟩ := mem_map.mp hkp
          have hdel := map_token_deleteWhere (htok ▸ hsd.tokens) hown'
          rw [heq] at hdel
          exact hdel

theorem redeemPasswordReset_sessions {new : String}
    (hdn : (redeemPasswordReset w s token new now).1=.done) :
    (redeemPasswordReset w s token new now).2.sessions=[] := by
  unfold redeemPasswordReset at hdn ⊢
  cases hfd : s.authChallenges.find? (isLiveChallenge .passwordReset token now) with
  | none =>
    rw [hfd] at hdn
    cases hdn
  | some =>
    rw [hfd] at hdn
    dsimp only at hdn ⊢
    split_ifs at hdn with hcur
    rw [if_pos hcur]
    exact filter_eq_nil_iff.mpr fun _ _ => by simp

theorem step_created (hinj : Function.Injective w.sha256) (hsd : Sound w s) (a : Action)
    {x : Session} (hx : x∈(step w s a).2.sessions)
    (hnew : x.token∉s.sessions.map Session.token) : Proved w s x.createdAt x.proof := by
  have hfol := step_follows hinj hsd.digests a
  generalize (step w s a).1=answer at hfol
  generalize (step w s a).2=s' at hfol hx
  have hold : ∀ mid, Keeps w s mid→∀ y∈mid.sessions, y.token∈s.sessions.map Session.token := by
    intro mid hkee y hy
    rcases hkee.sessions y hy with ⟨old,hold,heq⟩|hfl
    · exact heq.token ▸ mem_map_of_mem hold
    · exact hfl.elim
  cases hfol with
  | kept hkee => exact absurd (hold _ hkee x hx) hnew
  | created hkee hpro =>
    rcases mem_append.mp hx with hkp|had
    · exact absurd (hold _ hkee x hkp) hnew
    · cases mem_singleton.mp had
      exact hpro
  | stamped hkee =>
    rcases mem_updateWhere.mp hx with ⟨old,hkp,-,rfl⟩|⟨hkp,-⟩
    · exact absurd (hold _ hkee old hkp) hnew
    · exact absurd (hold _ hkee x hkp) hnew

/-- The password alone signs in only where there is no second factor. -/
theorem createAdminSessionIfCredential_factor {hash : String}
    {captured : Option (CredentialSnapshot×Option String)}
    (h : isSignedIn
      (createAdminSessionIfCredential w s hash false captured now).1=true) :
    s.totp=none∧s.passkeys=[] := by
  unfold createAdminSessionIfCredential at h
  split at h
  · cases h
  split at h
  · cases h
  · next hfac =>
    simp only [missesFactor,Bool.not_false,Bool.true_and,Bool.or_eq_true,not_or,
      Bool.not_eq_true,Option.isSome_eq_false_iff,Option.isNone_iff_eq_none,Bool.not_eq_false',
      List.isEmpty_iff] at hfac
    exact hfac

/-- A committed password change leaves the one live session that made it and a
redeemed reset leaves none. Every new session rests on a proof of the hash and the
epoch that the account carries when it is created, and of the password alone only
where there is no second factor. No sign-in token and no handoff code becomes two
sessions, and no recovery code or time step is spent twice. -/
theorem sessions_follow_credentials (hinj : Function.Injective w.sha256) {start : Account}
    (hstart : Sound w start) {h : List (Event Account Action Answer)}
    (hrun : Run (step w) (fun _ _ _ => True) start h s) :
    (∀ e∈h, ∀ old new keep captured now,
      e.action=.changeAdminPassword old new keep captured now→e.result≠.refused →
      (∃ own∈e.before.sessions, own.token=keep∧isLive w now own=true) ∧
        e.after.sessions.map Session.token=[keep]) ∧
      (∀ e∈h, ∀ token new now, e.action=.redeemPasswordReset token new now →
        e.result=.done→e.after.sessions=[]) ∧
      (∀ e∈h, ∀ x∈e.after.sessions, x.token∉e.before.sessions.map Session.token →
        Proved w e.before x.createdAt x.proof) ∧
      (∀ e∈h, ∀ hash captured now,
        e.action=.createAdminSessionIfCredential hash false captured now →
        isSignedIn e.result=true→e.before.totp=none∧e.before.passkeys=[]) ∧
      (∀ n, h.countP (redeems n)≤1∧h.countP (mints n)≤1∧h.countP (spends n)≤1 ∧
        h.countP (accepts n)≤1) := by
  have hpa : ∀ e∈h, Sound w e.before∧e=perform (step w) e.before e.action := by
    intro e he
    obtain ⟨h₁,h₂,rfl⟩ := append_of_mem he
    obtain ⟨hbef,-,heve⟩ := Run.split hrun
    exact ⟨Run.state_invariant hbef hstart fun _ _ a hsd _ => step_sound hinj hsd a,heve⟩
  refine ⟨?_,?_,?_,?_,fun n => ⟨?_,?_,?_,?_⟩⟩
  · intro e he old new keep captured now hact hres
    obtain ⟨hsd,heve⟩ := hpa e he
    rw [heve] at hres ⊢
    simp only [perform,hact,step,underReview] at hres ⊢
    split at hres
    · exact absurd rfl hres
    · next hrev =>
      rw [if_neg hrev]
      exact changeAdminPassword_sessions hsd hres
  · intro e he token new now hact hres
    obtain ⟨-,heve⟩ := hpa e he
    rw [heve] at hres ⊢
    simp only [perform,hact,step] at hres ⊢
    exact redeemPasswordReset_sessions hres
  · intro e he x hx hnew
    obtain ⟨hsd,heve⟩ := hpa e he
    rw [heve] at hx
    exact step_created hinj hsd e.action hx hnew
  · intro e he hash captured now hact hres
    rw [(hpa e he).2] at hres
    simp only [perform,hact,step] at hres
    exact createAdminSessionIfCredential_factor hres
  · exact reached_once hinj hstart hrun (P := ChallengeSpent n)
      (fun s a hsd => (step_stays_spent hinj hsd a n).1)
      fun s a hsd => redeems_reaches hinj hsd a
  · exact reached_once hinj hstart hrun (P := CodeSpent n)
      (fun s a hsd => (step_stays_spent hinj hsd a n).2.1)
      fun s a hsd => mints_reaches hinj hsd a
  · exact reached_once hinj hstart hrun (P := RecoverySpent n)
      (fun s a hsd => (step_stays_spent hinj hsd a n).2.2.1)
      fun s a hsd => spends_reaches hinj hsd a
  · exact reached_once hinj hstart hrun (P := StepPassed n)
      (fun s a hsd => (step_stays_spent hinj hsd a n).2.2.2)
      fun s a hsd => accepts_reaches hinj hsd a

/-- An installation with one hub whose digests are the texts themselves. -/
def sampleWorld : World where
  sha256 := id
  s256 := id
  sealTotp := id
  openTotp := id
  matchTotpStep := fun secret text now => if secret=text then some (now / 30000) else none
  sessionTtl := 14*24*60*60*1000
  idle := 12*60*60*1000
  issuer := true
  clients := [⟨"hub", "https://hub.example/callback", "hub secret"⟩]

/-- A new account without a second factor. -/
def newAccount : Account where
  passwordHash := "first"
  totp := none
  securityEpoch := 0
  passkeyReviewRequired := false
  passkeys := []
  recoveryCodes := []
  usedSteps := []
  sessions := []
  authChallenges := []
  passkeyChallenges := []
  handoffCodes := []
  takenCodes := []
  next := 0
  passwordVersion := 0

theorem newAccount_sound (w : World) : Sound w newAccount where
  tokens := nodup_nil
  drawn := nofun
  challengeTokens := nodup_nil
  challengesDrawn := nofun
  digests := nofun
  codes := nodup_nil
  codesDrawn := nofun
  recoveryDrawn := nofun
  recoveryIds := nodup_nil

/-- Two browsers sign in and the first one changes the password. -/
def passwordChange : List Action :=
  [.createAdminSessionIfCredential "first" false (some (⟨0,none,none⟩,none)) 1000,
    .createAdminSessionIfCredential "first" false (some (⟨0,none,none⟩,none)) 2000,
    .markStepUpVerifiedIfCurrent 0 "first" ⟨0,none,none⟩ 3000,
    .changeAdminPassword "first" "second" 0 (some ⟨⟨0,none,none⟩,some 3000,some 0⟩) 4000]

theorem passwordChange_run :
    Run (step sampleWorld) (fun _ _ _ => True) newAccount
      (play (step sampleWorld) [] newAccount passwordChange).1
      (play (step sampleWorld) [] newAccount passwordChange).2 :=
  Run.play Run.nil passwordChange ⟨trivial,trivial,trivial,trivial,trivial⟩

/-- The second browser is signed out. -/
theorem sessions_follow_credentials_change :
    ((play (step sampleWorld) [] newAccount (passwordChange.take 3)).2.sessions.map Session.token =
        [0,1]) ∧
      (play (step sampleWorld) [] newAccount passwordChange).2.sessions.map Session.token=[0] := by
  have hall := sessions_follow_credentials (w := sampleWorld) (fun _ _ h => h)
    (newAccount_sound sampleWorld) passwordChange_run
  refine ⟨by decide,?_⟩
  have hlt := hall.1
    (perform (step sampleWorld) (play (step sampleWorld) [] newAccount (passwordChange.take 3)).2
      (.changeAdminPassword "first" "second" 0 (some ⟨⟨0,none,none⟩,some 3000,some 0⟩) 4000))
    (by simp [passwordChange,play]) "first" "second" 0 (some ⟨⟨0,none,none⟩,some 3000,some 0⟩) 4000
    rfl (by decide)
  exact hlt.2

end SellRight.AdminSessionSafety
