import SellRight.PasskeyEpochs

/-!
# What a step does to handoff codes

A code is stored by one request and taken by one other. Every other step at most
drops codes, and the security epoch never goes back.
-/

namespace SellRight.AdminHandoffSteps

open RowTable AdminAccount AdminSignIn AdminCredentials AdminTokens AdminSessionSteps List
open PasskeyEpochs

variable {w : World} {s s' s'' : Account} {a : Action}

/-- The row of a code issued for a request. -/
def issuedCode (code : ℕ) (p : Principal) (ask : Authorize) (now : ℕ) : HandoffCode :=
  ⟨code,ask.clientId,ask.redirectUri,ask.codeChallenge,p.sessionId,p.securityEpoch,
    now+handoffCodeTtl⟩

/-- The redemption names the client, the callback and the verifier of the code, and
carries the secret of that client. -/
def Presents (w : World) (r : Redemption) (row : HandoffCode) : Prop :=
  r.code=row.code∧r.clientId=row.clientId∧r.redirectUri=row.redirectUri ∧
    row.codeChallenge=w.s256 r.codeVerifier ∧
    ∃ client∈w.clients, client.id=row.clientId∧client.redirectUri=row.redirectUri ∧
      w.sha256 r.clientSecret=client.secretSha256

/-- An enrolled or removed authenticator raises the epoch, and enrolling one leaves
the calling session alone. -/
theorem mutateAdminSecondFactor_changed {i : FactorChange} {now : ℕ}
    (hrd : i.totpSecret=i.totpVersion.map w.openTotp) (hcha : i.action≠.recovery)
    (hdn : (mutateAdminSecondFactor w s i now).1=.done) :
    s.securityEpoch<(mutateAdminSecondFactor w s i now).2.securityEpoch ∧
      (i.action=.enable→∀ x∈(mutateAdminSecondFactor w s i now).2.sessions,
        x.token=i.token) := by
  have hgo : ∀ {c : Prop} [Decidable c] {out rest : Answer×Account}, out.1≠.done →
      (if c then out else rest).1=.done → ¬ c∧(if c then out else rest)=rest := by
    intro c _ out rest hout hdn
    by_cases h : c
    · rw [if_pos h] at hdn
      exact absurd hdn hout
    · exact ⟨h,if_neg h⟩
  unfold mutateAdminSecondFactor at hdn ⊢
  obtain ⟨heq,hrt⟩ := hgo (by simp) hdn
  rw [hrt] at hdn ⊢
  have hver : s.totp=i.totpVersion := by
    by_contra hne
    exact heq (.inr hne)
  obtain ⟨-,hrt⟩ := hgo (by simp) hdn
  rw [hrt] at hdn ⊢
  obtain ⟨-,hrt⟩ := hgo (by simp) hdn
  rw [hrt] at hdn ⊢
  obtain ⟨-,hrt⟩ := hgo (by simp) hdn
  rw [hrt] at hdn ⊢
  cases hact : i.action with
  | recovery => exact absurd hact hcha
  | disable =>
    rw [hact] at hdn
    dsimp only at hdn ⊢
    obtain ⟨-,hrt⟩ := hgo (by simp) hdn
    rw [hrt] at hdn ⊢
    obtain ⟨hpro,hrt⟩ := hgo (by simp) hdn
    rw [hrt]
    refine ⟨?_,nofun⟩
    have hsec : s.totp.isSome=true := by
      cases htot : s.totp with
      | some => rfl
      | none =>
        rw [hrd,← hver,htot] at hpro
        simp at hpro
    obtain ⟨steps,codes,hwri⟩ := verifySecondFactor_writes w s i.totpSecret i.code now
    obtain ⟨stored,hsto⟩ := Option.isSome_iff_exists.mp hsec
    have hrai : (disableTotp (verifySecondFactor w s i.totpSecret i.code
        now).2).securityEpoch=s.securityEpoch+1 := by
      rw [hwri]
      unfold disableTotp writeAdmin
      dsimp only
      rw [hsto]
      split <;> rfl
    exact hrai ▸ Nat.lt_succ_self _
  | enable =>
    rw [hact] at hdn
    cases hsec : i.secret with
    | none =>
      rw [hsec] at hdn
      cases hdn
    | some secret =>
      rw [hsec] at hdn
      dsimp only at hdn ⊢
      obtain ⟨hfst,hrt⟩ := hgo (by simp) hdn
      rw [hrt]
      have htot : s.totp=none := by
        rw [hrd,← hver,Option.isSome_map,Bool.not_eq_true,
          Option.isSome_eq_false_iff,Option.isNone_iff_eq_none] at hfst
        exact hfst
      refine ⟨?_,fun _ x hx => ?_⟩
      · have hrai : (enableTotp s i.token (w.sealTotp secret) i.codes).securityEpoch =
            s.securityEpoch+1 := by
          unfold enableTotp writeAdmin
          rw [htot]
          rfl
        change s.securityEpoch<(enableTotp s i.token (w.sealTotp secret) i.codes).securityEpoch
        omega
      · have hkp := (mem_deleteWhere.mp hx).2
        simpa using hkp

/-- What a step does to the codes and the epoch. -/
structure CodeStep (w : World) (s : Account) (a : Action) (answer : Answer) (s' : Account) :
    Prop where
  /-- A new code was issued for a request of a session. -/
  stored : ∀ row∈s'.handoffCodes, row∈s.handoffCodes ∨
    ∃ p ask now, a=.issueHandoffCode p ask now∧answer=.issued row.code ∧
      row=issuedCode row.code p ask now
  /-- A newly taken code was presented before it expired. -/
  taken : ∀ row∈s'.takenCodes, row∈s.takenCodes ∨
    ∃ r now, a=.takeHandoffCode r now∧answer=.done∧row∈s.handoffCodes ∧
      Presents w r row∧now<row.expiresAt
  epoch : s.securityEpoch ≤ s'.securityEpoch

theorem codeStep_of_drops {answer : Answer} (h : DropsCodes s s') : CodeStep w s a answer s' :=
  ⟨fun row hrow => .inl (h.stored row hrow),fun row hrow => .inl (h.taken row hrow),h.epoch⟩

/-- A registered client is found by its id and callback. -/
theorem findHandoffClient_eq_some {clientId redirectUri : String} {client : HandoffClient}
    (h : findHandoffClient w clientId redirectUri=some client) :
    client∈w.clients∧client.id=clientId∧client.redirectUri=redirectUri := by
  have hfie := List.find?_some h
  rw [Bool.and_eq_true,decide_eq_true_eq,decide_eq_true_eq] at hfie
  exact ⟨mem_of_find?_eq_some h,hfie.1,hfie.2⟩

theorem issueHandoffCode_cases (p : Principal) (ask : Authorize) (now : ℕ) :
    issueHandoffCode w s p ask now=(.refused,s) ∨
      (now-freshAt p≤handoffFreshAuth∧(∃ x∈s.sessions, x.token=p.sessionId) ∧
        issueHandoffCode w s p ask now=(.issued s.next,{s with
            handoffCodes := deleteWhere (fun c => decide (c.expiresAt<now)) s.handoffCodes ++
              [issuedCode s.next p ask now]
            next := s.next+1})) := by
  unfold issueHandoffCode
  cases hfd : findHandoffClient w ask.clientId ask.redirectUri with
  | none => exact .inl rfl
  | some =>
    obtain ⟨-,hid,huri⟩ := findHandoffClient_eq_some hfd
    dsimp only
    split_ifs with hgua
    · exact .inl rfl
    simp only [Bool.or_eq_true,not_or,decide_eq_true_eq,Bool.not_eq_true,
      Bool.not_eq_false',any_eq_true,not_lt] at hgua
    obtain ⟨⟨-,hfre⟩,hses⟩ := hgua
    rw [hid,huri]
    exact .inr ⟨hfre,hses,rfl⟩

theorem issueHandoffCode_codeStep (p : Principal) (ask : Authorize) (now : ℕ) :
    CodeStep w s (.issueHandoffCode p ask now) (step w s (.issueHandoffCode p ask now)).1
      (step w s (.issueHandoffCode p ask now)).2 := by
  simp only [step,underReview]
  split
  · exact codeStep_of_drops (.refl s)
  rcases issueHandoffCode_cases (w := w) (s := s) p ask now with hno|⟨-,-,hyes⟩
  · rw [hno]
    exact codeStep_of_drops (.refl s)
  rw [hyes]
  refine ⟨fun row hrow => ?_,fun row hrow => .inl hrow,le_refl _⟩
  rcases mem_concat_iff.mp hrow with hold|rfl
  · exact .inl (mem_deleteWhere.mp hold).1
  · exact .inr ⟨p,ask,now,rfl,rfl,rfl⟩

theorem issueHandoffCode_issued {p : Principal} {ask : Authorize} {now n : ℕ}
    (h : (step w s (.issueHandoffCode p ask now)).1=.issued n) :
    n=s.next∧(step w s (.issueHandoffCode p ask now)).2.next=s.next+1 ∧
      now-freshAt p≤handoffFreshAuth∧∃ x∈s.sessions, x.token=p.sessionId := by
  simp only [step,underReview] at h ⊢
  split_ifs at h with hrev
  rw [if_neg hrev]
  rcases issueHandoffCode_cases (w := w) (s := s) p ask now with hno|⟨hfre,hses,hyes⟩
  · rw [hno] at h
    cases h
  · rw [hyes] at h ⊢
    cases h
    exact ⟨rfl,rfl,hfre,hses⟩

theorem takeHandoffCode_codeStep (r : Redemption) (now : ℕ) :
    CodeStep w s (.takeHandoffCode r now) (takeHandoffCode w s r now).1
      (takeHandoffCode w s r now).2 := by
  unfold takeHandoffCode
  cases hclie : findHandoffClient w r.clientId r.redirectUri with
  | none => exact codeStep_of_drops (.refl s)
  | some client =>
    obtain ⟨hmem,hid,huri⟩ := findHandoffClient_eq_some hclie
    dsimp only
    split_ifs with hsec
    · exact codeStep_of_drops (.refl s)
    cases hfd : s.handoffCodes.find? fun row =>
        decide (row.code=r.code)&&decide (now<row.expiresAt) with
    | none => exact codeStep_of_drops (.refl s)
    | some row =>
      have hhit := List.find?_some hfd
      rw [Bool.and_eq_true,decide_eq_true_eq,decide_eq_true_eq] at hhit
      dsimp only
      split
      · next hfs =>
        refine ⟨fun other hot => .inl (mem_deleteWhere.mp hot).1,fun other hot => ?_,le_refl _⟩
        rcases mem_concat_iff.mp hot with hold|rfl
        · exact .inl hold
        · simp only [codeFits,Bool.and_eq_true,decide_eq_true_eq] at hfs
          obtain ⟨⟨⟨hcli,hcal⟩,-⟩,hcha⟩ := hfs
          simp only [Bool.or_eq_true,not_or,decide_eq_true_eq,not_not] at hsec
          exact .inr ⟨r,now,rfl,rfl,mem_of_find?_eq_some hfd,
            ⟨hhit.1.symm,(hcli.trans hid).symm,(hcal.trans huri).symm,hcha,
              client,hmem,hcli.symm,hcal.symm,hsec.2⟩,hhit.2⟩
      · exact ⟨fun other hot => .inl (mem_deleteWhere.mp hot).1,fun _ hot => .inl hot,le_refl _⟩

/-- A minted session rests on a taken code of the current epoch whose session is
live. -/
theorem redeemHandoffCode_minted {code now token : ℕ}
    (h : (redeemHandoffCode w s code now).1=.signedIn token) :
    token=s.next∧∃ row∈s.takenCodes, row.code=code∧row.epoch=s.securityEpoch ∧
      ∃ own∈s.sessions, own.token=row.sessionId∧isLive w now own=true := by
  unfold redeemHandoffCode at h
  cases hfd : s.takenCodes.find? fun row => decide (row.code=code) with
  | none =>
    rw [hfd] at h
    cases h
  | some row =>
    obtain ⟨hrow,hcod⟩ := find_key_eq_some HandoffCode.code hfd
    rw [hfd] at h
    dsimp only at h
    split_ifs at h with hcur
    cases h
    obtain ⟨own,hown⟩ := Option.isSome_iff_exists.mp hcur.2
    have hlv := List.find?_some hown
    rw [Bool.and_eq_true,decide_eq_true_eq] at hlv
    exact ⟨rfl,row,hrow,hcod,hcur.1.symm,own,mem_of_find?_eq_some hown,hlv⟩

theorem step_codes (hinj : Function.Injective w.sha256)
    (hdig : ∀ c∈s.authChallenges, c.digest=credentialDigest w c.hash) (a : Action) :
    CodeStep w s a (step w s a).1 (step w s a).2 := by
  cases ha : movesCodes a with
  | false => exact codeStep_of_drops (step_settles hinj hdig a ha).2
  | true =>
    cases a with
    | issueHandoffCode p ask now => exact issueHandoffCode_codeStep p ask now
    | takeHandoffCode r now => exact takeHandoffCode_codeStep r now
    | _ => cases ha

end SellRight.AdminHandoffSteps
