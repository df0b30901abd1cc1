import SellRight.AdminCredentials
import SellRight.RowDescent

/-!
# What an operation keeps

An operation keeps the sessions it does not delete, without newer step-ups. Spent
tokens and codes stay spent, random values are not drawn twice, and accepted time
steps only advance.
-/

namespace SellRight.AdminTokens

open RowTable RowDescent AdminAccount AdminSignIn AdminCredentials List

/-- A session kept by a step, with its step-up or without. -/
structure KeepsSession (x x' : Session) : Prop where
  token : x'.token=x.token
  proof : x'.proof=x.proof
  createdAt : x'.createdAt=x.createdAt
  handoffClientId : x'.handoffClientId=x.handoffClientId
  passwordVersion : x'.passwordVersion=x.passwordVersion
  stepUp : x'.stepUpAt=none∨(x'.stepUpAt=x.stepUpAt∧x'.stepUpEpoch=x.stepUpEpoch)

theorem KeepsSession.refl (x : Session) : KeepsSession x x := ⟨rfl,rfl,rfl,rfl,rfl,.inr ⟨rfl,rfl⟩⟩

theorem KeepsSession.trans {a b c : Session} (h₁ : KeepsSession a b) (h₂ : KeepsSession b c) :
    KeepsSession a c := by
  refine ⟨h₂.token.trans h₁.token,h₂.proof.trans h₁.proof,h₂.createdAt.trans h₁.createdAt,
    h₂.handoffClientId.trans h₁.handoffClientId,h₂.passwordVersion.trans h₁.passwordVersion,?_⟩
  rcases h₂.stepUp with hno|⟨hat,hepo⟩
  · exact .inl hno
  · rw [hat,hepo]
    exact h₁.stepUp

/-- A sign-in token kept by a step. A claimed one stays claimed. -/
def KeepsChallenge (c c' : AuthChallenge) : Prop :=
  c'.token=c.token∧c'.digest=c.digest∧c'.hash=c.hash∧(c.consumed=true→c'.consumed=true)

/-- A recovery code kept by a step. A spent one stays spent. -/
def KeepsCode (c c' : RecoveryCode) : Prop := c'.id=c.id∧(c.usedAt≠none→c'.usedAt≠none)

/-- All handoff codes, stored or taken. -/
def allCodes (s : Account) : List HandoffCode := s.handoffCodes++s.takenCodes

/-- A step that neither creates a session nor stamps a step-up. -/
structure Keeps (w : World) (s s' : Account) : Prop where
  next : s.next ≤ s'.next
  sessions : Descends (fun _ => False) KeepsSession s.sessions s'.sessions
  tokens : (s'.sessions.map Session.token).Sublist (s.sessions.map Session.token)
  challenges : Descends (fun c => s.next≤c.token∧c.token<s'.next ∧
    c.digest=credentialDigest w c.hash) KeepsChallenge s.authChallenges s'.authChallenges
  codes : Descends (fun c => s.next≤c.code∧c.code<s'.next) Eq (allCodes s) (allCodes s')
  recovery : Descends (fun c => s.next≤c.id∧c.id<s'.next) KeepsCode s.recoveryCodes s'.recoveryCodes
  /-- The latest accepted time step does not go back. -/
  steps : ∀ k∈s.usedSteps, ∃ j∈s'.usedSteps, k≤j
  /-- A newly accepted time step is later than every accepted one. -/
  newSteps : ∀ k∈s'.usedSteps, k∈s.usedSteps∨∀ j∈s.usedSteps, j<k
  distinct : (∀ c∈s.authChallenges, c.token<s.next) →
    (s.authChallenges.map AuthChallenge.token).Nodup →
    (s'.authChallenges.map AuthChallenge.token).Nodup
  distinctCodes : (∀ c∈allCodes s, c.code<s.next) →
    ((allCodes s).map HandoffCode.code).Nodup→((allCodes s').map HandoffCode.code).Nodup
  distinctRecovery : (s.recoveryCodes.map RecoveryCode.id).Nodup →
    (s'.recoveryCodes.map RecoveryCode.id).Nodup

variable {w : World} {s s' s'' : Account}

/-- Codes are at most dropped, and the epoch does not go back. -/
structure DropsCodes (s s' : Account) : Prop where
  stored : ∀ row∈s'.handoffCodes, row∈s.handoffCodes
  taken : ∀ row∈s'.takenCodes, row∈s.takenCodes
  epoch : s.securityEpoch ≤ s'.securityEpoch

theorem DropsCodes.refl (s : Account) : DropsCodes s s := ⟨fun _ h => h,fun _ h => h,le_refl _⟩

theorem DropsCodes.trans (h₁ : DropsCodes s s') (h₂ : DropsCodes s' s'') : DropsCodes s s'' :=
  ⟨fun row h => h₁.stored row (h₂.stored row h),fun row h => h₁.taken row (h₂.taken row h),
    h₁.epoch.trans h₂.epoch⟩

/-- A step that moves no code either. -/
structure Steady (w : World) (s s' : Account) : Prop extends Keeps w s s',DropsCodes s s'

theorem Keeps.refl (w : World) (s : Account) : Keeps w s s where
  next := le_refl _
  sessions := .refl KeepsSession.refl _
  tokens := List.Sublist.refl _
  challenges := .refl (fun _ => ⟨rfl,rfl,rfl,id⟩) _
  codes := .refl (fun _ => rfl) _
  recovery := .refl (fun _ => ⟨rfl,id⟩) _
  steps := fun k hk => ⟨k,hk,le_refl k⟩
  newSteps := fun _ hk => .inl hk
  distinct := fun _ h => h
  distinctCodes := fun _ h => h
  distinctRecovery := fun h => h

/-- Sign-in tokens stay below the counter. -/
theorem Keeps.challenges_lt (h : Keeps w s s') (hlt : ∀ c∈s.authChallenges, c.token<s.next) :
    ∀ c∈s'.authChallenges, c.token<s'.next :=
  h.challenges.forall hlt (fun _ _ hkp hold => hkp.1 ▸ hold.trans_le h.next) fun _ hnew => hnew.2.1

/-- Handoff codes stay below the counter. -/
theorem Keeps.codes_lt (h : Keeps w s s') (hlt : ∀ c∈allCodes s, c.code<s.next) :
    ∀ c∈allCodes s', c.code<s'.next :=
  h.codes.forall hlt (fun _ _ hkp hold => hkp ▸ hold.trans_le h.next) fun _ hnew => hnew.2

theorem Keeps.trans (h₁ : Keeps w s s') (h₂ : Keeps w s' s'') : Keeps w s s'' where
  next := h₁.next.trans h₂.next
  sessions := .trans (fun _ _ _ => .trans) (fun _ _ h => h.elim) h₁.sessions h₂.sessions
  tokens := h₂.tokens.trans h₁.tokens
  challenges := by
    refine .trans ?_ ?_ h₁.challenges (h₂.challenges.mono fun c hc => ⟨h₁.next.trans hc.1,hc.2⟩)
    · rintro a b c ⟨htok,hdig,hhas,huse⟩ ⟨htok',hdig',hhas',huse'⟩
      exact ⟨htok'.trans htok,hdig'.trans hdig,hhas'.trans hhas,huse' ∘ huse⟩
    · rintro a b ⟨hle,hlt,hdig⟩ ⟨htok,heq,hhas,-⟩
      rw [htok,heq,hhas]
      exact ⟨hle,hlt.trans_le h₂.next,hdig⟩
  codes := by
    refine .trans (fun _ _ _ => Eq.trans) ?_ h₁.codes
      (h₂.codes.mono fun c hc => ⟨h₁.next.trans hc.1,hc.2⟩)
    rintro a b ⟨hle,hlt⟩ rfl
    exact ⟨hle,hlt.trans_le h₂.next⟩
  recovery := by
    refine .trans ?_ ?_ h₁.recovery (h₂.recovery.mono fun c hc => ⟨h₁.next.trans hc.1,hc.2⟩)
    · rintro a b c ⟨hid,huse⟩ ⟨hid',huse'⟩
      exact ⟨hid'.trans hid,huse' ∘ huse⟩
    · rintro a b ⟨hle,hlt⟩ ⟨hid,-⟩
      rw [hid]
      exact ⟨hle,hlt.trans_le h₂.next⟩
  steps := by
    intro k hk
    obtain ⟨j,hj,hkj⟩ := h₁.steps k hk
    obtain ⟨i,hi,hji⟩ := h₂.steps j hj
    exact ⟨i,hi,hkj.trans hji⟩
  newSteps := by
    intro k hk
    rcases h₂.newSteps k hk with hmid|hlat
    · exact h₁.newSteps k hmid
    · refine .inr fun i hi => ?_
      obtain ⟨j,hj,hij⟩ := h₁.steps i hi
      exact hij.trans_lt (hlat j hj)
  distinct := fun hlt h => h₂.distinct (h₁.challenges_lt hlt) (h₁.distinct hlt h)
  distinctCodes := fun hlt h => h₂.distinctCodes (h₁.codes_lt hlt) (h₁.distinctCodes hlt h)
  distinctRecovery := fun h => h₂.distinctRecovery (h₁.distinctRecovery h)

theorem Steady.refl (w : World) (s : Account) : Steady w s s :=
  {Keeps.refl w s,DropsCodes.refl s with}

theorem Steady.trans (h₁ : Steady w s s') (h₂ : Steady w s' s'') : Steady w s s'' :=
  {h₁.toKeeps.trans h₂.toKeeps,h₁.toDropsCodes.trans h₂.toDropsCodes with}

/-- A change of the session table and of what holds no token. -/
theorem Steady.of_sessions (hrs : Descends (fun _ => False) KeepsSession s.sessions s'.sessions)
    (htok : (s'.sessions.map Session.token).Sublist (s.sessions.map Session.token))
    (hnx : s'.next=s.next) (hcha : s'.authChallenges=s.authChallenges)
    (hcod : s'.handoffCodes=s.handoffCodes) (htk : s'.takenCodes=s.takenCodes)
    (hrec : s'.recoveryCodes=s.recoveryCodes) (hste : s'.usedSteps=s.usedSteps)
    (hepo : s.securityEpoch ≤ s'.securityEpoch) : Steady w s s' where
  next := hnx.ge
  sessions := hrs
  tokens := htok
  challenges := hcha ▸ Descends.refl (fun _ => ⟨rfl,rfl,rfl,id⟩) _
  codes := by
    rw [allCodes,allCodes,hcod,htk]
    exact .refl (fun _ => rfl) _
  recovery := hrec ▸ Descends.refl (fun _ => ⟨rfl,id⟩) _
  steps := fun k hk => ⟨k,hste ▸ hk,le_refl k⟩
  newSteps := fun _ hk => .inl (hste ▸ hk)
  distinct := fun _ h => hcha ▸ h
  distinctCodes := fun _ h => by
    rw [allCodes,hcod,htk]
    exact h
  distinctRecovery := fun h => hrec ▸ h
  stored := fun _ h => hcod ▸ h
  taken := fun _ h => htk ▸ h
  epoch := hepo

/-- A change of what holds no token. -/
theorem Steady.of_same (hses : s'.sessions=s.sessions) (hnx : s'.next=s.next)
    (hcha : s'.authChallenges=s.authChallenges)
    (hcod : s'.handoffCodes=s.handoffCodes) (htk : s'.takenCodes=s.takenCodes)
    (hrec : s'.recoveryCodes=s.recoveryCodes) (hste : s'.usedSteps=s.usedSteps)
    (hepo : s'.securityEpoch=s.securityEpoch) : Steady w s s' :=
  Steady.of_sessions (hses ▸ Descends.refl KeepsSession.refl _)
    (hses ▸ List.Sublist.refl _) hnx hcha hcod htk hrec hste hepo.ge

theorem descends_clearStepUps (rows : List Session) :
    Descends (fun _ => False) KeepsSession rows (clearStepUps rows) :=
  descends_updateWhere KeepsSession.refl fun _ _ _ => ⟨rfl,rfl,rfl,rfl,rfl,.inl rfl⟩

theorem clearStepUps_none {rows : List Session} : ∀ x∈clearStepUps rows, x.stepUpAt=none := by
  intro x hx
  rcases mem_updateWhere.mp hx with ⟨old,-,-,rfl⟩|⟨-,hno⟩
  · rfl
  · simpa using hno

theorem clearStepUps_tokens (rows : List Session) :
    ((clearStepUps rows).map Session.token).Sublist (rows.map Session.token) :=
  sublist_map_updateWhere Session.token (f := .clearStepUp) (fun _ => rfl) rows

theorem steady_writeAdmin (hash : String) (totp : Option String) {epoch : ℕ}
    (hle : s.securityEpoch≤epoch) : Steady w s (writeAdmin s hash totp epoch) := by
  refine .of_sessions ?_ ?_ rfl rfl rfl rfl rfl rfl ?_
  · simp only [writeAdmin]
    split
    · exact descends_clearStepUps _
    · exact .refl KeepsSession.refl _
  · simp only [writeAdmin]
    split
    · exact clearStepUps_tokens _
    · exact List.Sublist.refl _
  · simp only [writeAdmin]
    split <;> omega

theorem steady_deleteSessions (p : Session → Bool) : Steady w s (deleteSessions s p) :=
  {Steady.refl w s with
    sessions := descends_deleteWhere KeepsSession.refl
    tokens := sublist_map_deleteWhere _ _
    codes := by
      intro c hc
      refine .inl ⟨c,?_,rfl⟩
      rcases mem_append.mp hc with hsto|htk
      · exact mem_append_left _ (mem_deleteWhere.mp hsto).1
      · exact mem_append_right _ htk
    distinctCodes := fun _ h => h.sublist
      ((filter_sublist.append (List.Sublist.refl _)).map HandoffCode.code)
    stored := fun _ h => (mem_deleteWhere.mp h).1}

theorem nodup_regenerated (s : Account) (codes : List String) :
    ((regenerateRecoveryCodes s codes).recoveryCodes.map RecoveryCode.id).Nodup := by
  refine pairwise_iff_getElem.mpr fun i j hi hj hlt => ?_
  simp only [regenerateRecoveryCodes,getElem_map,getElem_mapIdx]
  omega

theorem steady_regenerateRecoveryCodes (codes : List String) :
    Steady w s (regenerateRecoveryCodes s codes) :=
  {Steady.refl w s with
    next := Nat.le_add_right _ _
    challenges := (Steady.refl w s).challenges.mono fun _ hc =>
      ⟨hc.1,hc.2.1.trans_le (Nat.le_add_right _ _),hc.2.2⟩
    codes := (Steady.refl w s).codes.mono fun _ hc => ⟨hc.1,hc.2.trans_le (Nat.le_add_right _ _)⟩
    recovery := by
      intro row hrow
      obtain ⟨i,hi,rfl⟩ := mem_mapIdx.mp hrow
      exact .inr ⟨Nat.le_add_right _ _,Nat.add_lt_add_left hi _⟩
    distinctRecovery := fun _ => nodup_regenerated s codes}

theorem Steady.of_recovery {rows : List RecoveryCode}
    (hrs : Descends (fun _ => False) KeepsCode s.recoveryCodes rows)
    (hids : (rows.map RecoveryCode.id).Sublist (s.recoveryCodes.map RecoveryCode.id)) :
    Steady w s {s with recoveryCodes := rows} :=
  {Steady.refl w s with
    recovery := hrs.mono fun _ h => h.elim
    distinctRecovery := fun h => h.sublist hids}

theorem steady_spendCode (hash : String) (now : ℕ) : Steady w s (spendCode s hash now) :=
  Steady.of_recovery (descends_updateWhere (fun _ => ⟨rfl,id⟩) fun _ _ _ => ⟨rfl,fun _ => by simp⟩)
    (sublist_map_updateWhere (f := fun row : RecoveryCode => {row with usedAt := some now})
      RecoveryCode.id (fun _ => rfl) _)

theorem steady_verifyTotpOnce (secret text : String) (now : ℕ) :
    Steady w s (verifyTotpOnce w s secret text now).2 := by
  unfold verifyTotpOnce
  cases w.matchTotpStep secret text now with
  | none => exact .refl w s
  | some step =>
    dsimp only
    split
    · next hlat =>
      obtain ⟨old,hold,hle⟩ := any_eq_true.mp hlat
      refine {Steady.refl w s with steps := ?_,newSteps := ?_}
      · intro k hk
        by_cases hpru : k<step-10
        · exact ⟨old,hold,by have := of_decide_eq_true hle; omega⟩
        · exact ⟨k,mem_deleteWhere.mpr ⟨hk,by simpa using hpru⟩,le_refl k⟩
      · exact fun k hk => .inl (mem_deleteWhere.mp hk).1
    · next hlate =>
      refine {Steady.refl w s with steps := ?_,newSteps := ?_}
      · intro k hk
        by_cases hpru : k<step-10
        · exact ⟨step,by simp,by omega⟩
        · exact ⟨k,mem_append_left _ (mem_deleteWhere.mpr ⟨hk,by simpa using hpru⟩),le_refl k⟩
      · intro k hk
        rcases mem_append.mp hk with hold|hnew
        · exact .inl (mem_deleteWhere.mp hold).1
        · cases mem_singleton.mp hnew
          refine .inr fun j hj => ?_
          by_cases hpru : j<step-10
          · omega
          · by_contra hge
            exact hlate (any_eq_true.mpr ⟨j,mem_deleteWhere.mpr ⟨hj,by simpa using hpru⟩,
              by simpa using hge⟩)

section
variable (secret : Option String) (code : Code) (now : ℕ)

theorem steady_verifySecondFactor :
    Steady w s (verifySecondFactor w s secret code now).2 := by
  unfold verifySecondFactor
  split
  · split
    · exact .refl w s
    · exact steady_verifyTotpOnce _ _ _
  · exact steady_spendCode _ _
  · exact .refl w s

theorem steady_verifyLoginFactor :
    Steady w s (verifyLoginFactor w s secret code now).2 := by
  unfold verifyLoginFactor
  split
  · split
    · exact .refl w s
    · exact steady_verifyTotpOnce _ _ _
  · split
    · exact .refl w s
    · exact steady_spendCode _ _
  · exact .refl w s

end

theorem verifyTotpOnce_writes (secret text : String) (now : ℕ) :
    ∃ steps, (verifyTotpOnce w s secret text now).2={s with usedSteps := steps} := by
  unfold verifyTotpOnce
  split
  · exact ⟨_,rfl⟩
  · dsimp only
    split <;> exact ⟨_,rfl⟩

section
variable (w : World) (s : Account) (secret : Option String) (code : Code) (now : ℕ)

/-- A verified code changes the accepted time steps and the recovery codes alone. -/
theorem verifySecondFactor_writes : ∃ steps codes, (verifySecondFactor w s secret code now).2 =
    {s with usedSteps := steps,recoveryCodes := codes} := by
  unfold verifySecondFactor
  split
  · split
    · exact ⟨_,_,rfl⟩
    · exact (verifyTotpOnce_writes _ _ _).imp fun _ h => ⟨_,h⟩
  · exact ⟨_,_,rfl⟩
  · exact ⟨_,_,rfl⟩

theorem verifyLoginFactor_writes : ∃ steps codes, (verifyLoginFactor w s secret code now).2 =
    {s with usedSteps := steps,recoveryCodes := codes} := by
  unfold verifyLoginFactor
  split
  · split
    · exact ⟨_,_,rfl⟩
    · exact (verifyTotpOnce_writes _ _ _).imp fun _ h => ⟨_,h⟩
  · split <;> exact ⟨_,_,rfl⟩
  · exact ⟨_,_,rfl⟩

end

/-- A change of the sign-in tokens alone. -/
theorem Steady.of_challenges {rows : List AuthChallenge}
    (hrs : Descends (fun _ => False) KeepsChallenge s.authChallenges rows)
    (htok : (rows.map AuthChallenge.token).Sublist (s.authChallenges.map AuthChallenge.token)) :
    Steady w s {s with authChallenges := rows} :=
  {Steady.refl w s with
    challenges := hrs.mono fun _ h => h.elim
    distinct := fun _ h => h.sublist htok}

theorem steady_claimAuthChallenge (kind : Kind) (token now : ℕ) :
    Steady w s (claimAuthChallenge s kind token now) :=
  Steady.of_challenges (descends_updateWhere (fun _ => ⟨rfl,rfl,rfl,id⟩)
    fun _ _ _ => ⟨rfl,rfl,rfl,fun _ => rfl⟩)
    (sublist_map_updateWhere (f := fun c : AuthChallenge => {c with consumed := true})
      AuthChallenge.token (fun _ => rfl) _)

theorem steady_issueChallenge (kind : Kind) (hash : String) (epoch expiresAt : ℕ) :
    Steady w s (issueChallenge w s kind hash epoch expiresAt).2 :=
  {Steady.refl w s with
    next := Nat.le_succ _
    challenges := (descends_deleteWhere fun _ => ⟨rfl,rfl,rfl,id⟩).append fun c hc => by
      cases mem_singleton.mp hc
      exact ⟨le_refl _,Nat.lt_succ_self _,rfl⟩
    codes := (Steady.refl w s).codes.mono fun _ hc => ⟨hc.1,hc.2.trans (Nat.lt_succ_self _)⟩
    recovery := (Steady.refl w s).recovery.mono fun _ hc => ⟨hc.1,hc.2.trans (Nat.lt_succ_self _)⟩
    distinct := by
      intro hlt h
      exact nodup_map_append AuthChallenge.token (nodup_map_deleteWhere AuthChallenge.token h)
        fun c hc => (hlt c (mem_deleteWhere.mp hc).1).ne}

/-- More drawn values, the same tables. -/
theorem Steady.of_drawn {n : ℕ} (hn : s.next≤n) : Steady w s {s with next := n} :=
  {Steady.refl w s with
    next := hn
    challenges := (Steady.refl w s).challenges.mono fun _ hc => ⟨hc.1,hc.2.1.trans_le hn,hc.2.2⟩
    codes := (Steady.refl w s).codes.mono fun _ hc => ⟨hc.1,hc.2.trans_le hn⟩
    recovery := (Steady.refl w s).recovery.mono fun _ hc => ⟨hc.1,hc.2.trans_le hn⟩}

theorem steady_issueCeremony (kind : Ceremony) (session epoch : Option ℕ) (now : ℕ) :
    Steady w s (issueCeremony s kind session epoch now).2 :=
  (Steady.of_drawn (Nat.le_add_right s.next 2)).trans (Steady.of_same rfl rfl rfl rfl rfl rfl rfl rfl)

theorem steady_claimChallenge {kind : Ceremony} {session epoch : Option ℕ} {challenge nonce now : ℕ}
    (h : claimChallenge s kind session epoch challenge nonce now=some s') : Steady w s s' := by
  unfold claimChallenge at h
  split at h
  · cases h
    exact .of_same rfl rfl rfl rfl rfl rfl rfl rfl
  · cases h

end SellRight.AdminTokens
