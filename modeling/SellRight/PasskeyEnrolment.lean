import SellRight.AdminSessionSafety
import SellRight.PasskeyEpochs

/-!
# Who may enrol a passkey

A step-up that counts was made after the latest removal of a passkey. Without a
step-up, the age of a session stands for a sign-in of its own exactly when that
sign-in proved the password and the password was not replaced since. A session
minted by a handoff is as young as a sign-in.
-/

namespace SellRight.PasskeyEnrolment

open RowTable RowDescent RunHistory AdminAccount AdminSignIn AdminCredentials AdminTokens List
open AdminSessionSteps AdminSessionSafety PasskeyEpochs

variable {w : World} {s : Account} {start : Account}

/-- A run of one account. -/
abbrev History := List (Event Account Action Answer)

/-- The event stamps a step-up of a session at a time. -/
def Stamps (token t : ℕ) (e : Event Account Action Answer) : Prop :=
  e.result=.done∧stampOf e.action=some (token,t)

def RemovesPasskey (e : Event Account Action Answer) : Prop := Removed e.before e.after

/-- The event creates a session from the password. -/
def SignsInByPassword (token : ℕ) (e : Event Account Action Answer) : Prop :=
  e.result=.signedIn token∧signsInByPassword e.action=true

def ReplacesPassword (e : Event Account Action Answer) : Prop :=
  replacesPassword e.action e.result=true

/-- The credential that the sign-in of a session proved is still the account's. A
handed-over session proved none. -/
def StillHeld (s : Account) (x : Session) : Prop :=
  match x.proof with
  | .password _ _ => x.passwordVersion=s.passwordVersion
  | .passkey id _ => ∃ p∈s.passkeys, p.id=id
  | .handoff _ _ => False

/-- The session holds a step-up of the last five minutes, of the current epoch and
made after the latest removal of a passkey. -/
def HoldsStepUp (h : History) (s : Account) (token now : ℕ) : Prop :=
  ∃ x∈s.sessions, x.token=token∧∃ t, x.stepUpAt=some t∧now<t+stepUpWindow ∧
    x.stepUpEpoch=some s.securityEpoch∧Since (Stamps token t) RemovesPasskey h

/-- The account has no second factor, and the session was created in the last
fifteen minutes by a sign-in of its own that proved a credential still held. -/
def HoldsSignIn (s : Account) (token now : ℕ) : Prop :=
  s.totp=none∧s.passkeys=[]∧∃ x∈s.sessions, x.token=token ∧
    now<x.createdAt+freshEnroll∧StillHeld s x

/-- What the past of a run says about the sessions. -/
structure Accounted (w : World) (h : History) (s : Account) : Prop where
  sound : Sound w s
  aligned : Aligned s
  stepUps : ∀ x∈s.sessions, ∀ t, x.stepUpAt=some t → Since (Stamps x.token t) RemovesPasskey h
  signIns : ∀ x∈s.sessions, (isPassword x.proof=true∧x.passwordVersion=s.passwordVersion) ↔
    Since (SignsInByPassword x.token) ReplacesPassword h
  versions : ∀ x∈s.sessions, x.passwordVersion ≤ s.passwordVersion
  past : ∀ token, Since (SignsInByPassword token) ReplacesPassword h→token<s.next

/-- An account whose sessions have all ended. -/
structure Opening (w : World) (s : Account) : Prop where
  sound : Sound w s
  epochs : ∀ p∈s.passkeys, p.epoch=s.securityEpoch
  sessions : s.sessions=[]

theorem Opening.accounted (h : Opening w s) : Accounted w [] s where
  sound := h.sound
  aligned := ⟨h.epochs,fun _ x hx => by rw [h.sessions] at hx; cases hx⟩
  stepUps := fun x hx => by rw [h.sessions] at hx; cases hx
  signIns := fun x hx => by rw [h.sessions] at hx; cases hx
  versions := fun x hx => by rw [h.sessions] at hx; cases hx
  past := fun _ hsin => absurd hsin not_since_nil

variable {token : ℕ}

section
variable (hinj : Function.Injective w.sha256)
include hinj

theorem Accounted.step_stepUps {h : History} (hacc : Accounted w h s) (a : Action) :
    ∀ x∈(step w s a).2.sessions, ∀ t, x.stepUpAt=some t →
      Since (Stamps x.token t) RemovesPasskey (h++[perform (step w) s a]) := by
  intro x hx t ht
  have hrem := (step_keyStep (w := w) hacc.aligned a).1.removed
  have hkp : ∀ old∈s.sessions, KeepsSession old x →
      Since (Stamps x.token t) RemovesPasskey (h++[perform (step w) s a]) := by
    intro old hold heq
    rcases heq.stepUp with hno|⟨hat,-⟩
    · rw [hno] at ht
      cases ht
    refine since_append.mpr (.inr ⟨?_,fun hlif => ?_⟩)
    · rw [heq.token]
      exact hacc.stepUps old hold t (hat ▸ ht)
    · rw [hrem hlif x hx] at ht
      cases ht
  have hfol := step_follows hinj hacc.sound.digests a
  have heve : (perform (step w) s a).result=(step w s a).1 := rfl
  generalize hans : (step w s a).1=answer at hfol heve
  generalize haft : (step w s a).2=s' at hfol hx
  cases hfol with
  | kept hkee =>
    rcases hkee.sessions x hx with ⟨old,hold,heq⟩|hfl
    · exact hkp old hold heq
    · exact hfl.elim
  | created hkee =>
    rcases mem_append.mp hx with hkep|hnew
    · rcases hkee.sessions x hkep with ⟨old,hold,heq⟩|hfl
      · exact hkp old hold heq
      · exact hfl.elim
    · cases mem_singleton.mp hnew
      cases ht
  | @stamped mid token now hkee _ hsta =>
    rcases mem_updateWhere.mp hx with ⟨old,-,hhit,rfl⟩|⟨hkep,-⟩
    · cases ht
      refine since_append.mpr (.inl ⟨heve,?_⟩)
      rw [show old.token=token by simpa using hhit]
      exact hsta
    · rcases hkee.sessions x hkep with ⟨old,hold,heq⟩|hfl
      · exact hkp old hold heq
      · exact hfl.elim

theorem step_origin (hsd : Sound w s) (a : Action) {x : Session} (hx : x∈(step w s a).2.sessions) :
    (∃ old∈s.sessions, x.token=old.token∧x.proof=old.proof ∧
        x.passwordVersion=old.passwordVersion∧x.createdAt=old.createdAt) ∨
      (s.next≤x.token∧(step w s a).1=.signedIn x.token ∧
        signsInByPassword a=isPassword x.proof∧x.passwordVersion=s.passwordVersion ∧
        x.stepUpAt=none) := by
  have hfol := step_follows hinj hsd.digests a
  generalize (step w s a).1=answer at hfol ⊢
  generalize (step w s a).2=s' at hfol hx
  have hold : ∀ mid, Keeps w s mid→∀ y∈mid.sessions, ∃ old∈s.sessions, y.token=old.token ∧
      y.proof=old.proof∧y.passwordVersion=old.passwordVersion∧y.createdAt=old.createdAt := by
    intro mid hkee y hy
    rcases hkee.sessions y hy with ⟨old,hmem,heq⟩|hfl
    · exact ⟨old,hmem,heq.token,heq.proof,heq.passwordVersion,heq.createdAt⟩
    · exact hfl.elim
  cases hfol with
  | kept hkee => exact .inl (hold _ hkee x hx)
  | created hkee _ hver hpas =>
    rcases mem_append.mp hx with hkp|hnew
    · exact .inl (hold _ hkee x hkp)
    · cases mem_singleton.mp hnew
      exact .inr ⟨hkee.next,rfl,hpas,hver,rfl⟩
  | stamped hkee =>
    rcases mem_updateWhere.mp hx with ⟨y,hkp,-,rfl⟩|⟨hkp,-⟩
    · exact .inl (hold _ hkee y hkp)
    · exact .inl (hold _ hkee x hkp)

/-- A created session has a new token. -/
theorem step_signedIn (hsd : Sound w s) (a : Action) (h : (step w s a).1=.signedIn token) :
    s.next≤token∧token<(step w s a).2.next := by
  have hfol := step_follows hinj hsd.digests a
  generalize (step w s a).1=answer at hfol h
  generalize (step w s a).2=s' at hfol
  cases hfol with
  | kept _ hno => exact absurd h (hno token)
  | created hkee =>
    cases h
    exact ⟨hkee.next,Nat.lt_succ_self _⟩
  | stamped => cases h

end

theorem replacesPassword_signedIn {a : Action} (h : (step w s a).1=.signedIn token) :
    replacesPassword a (step w s a).1=false := by
  rw [h]
  cases a with
  | changeAdminPassword old new keep captured now =>
    exfalso
    simp only [step,underReview] at h
    split_ifs at h
    exact (changeAdminPassword_signsNone (w := w) old new keep captured now).2 token h
  | redeemPasswordReset => rfl
  | _ => rfl

section
variable (hinj : Function.Injective w.sha256)
include hinj

theorem step_review (hsd : Sound w s)
    (hali : Aligned s) (hrev : s.passkeyReviewRequired=true) (a : Action) :
    ∀ x∈(step w s a).2.sessions, x.stepUpAt=none := by
  intro x hx
  have hkp : ∀ mid, Keeps w s mid→x∈mid.sessions→x.stepUpAt=none := by
    intro mid hkee hmid
    rcases hkee.sessions x hmid with ⟨old,hold,heq⟩|hfl
    · rcases heq.stepUp with hno|⟨hat,-⟩
      · exact hno
      · exact hat.trans (hali.review hrev old hold)
    · exact hfl.elim
  have hfol := step_follows hinj hsd.digests a
  generalize (step w s a).1=answer at hfol
  generalize (step w s a).2=s' at hfol hx
  cases hfol with
  | kept hkee => exact hkp _ hkee hx
  | created hkee =>
    rcases mem_append.mp hx with hmid|hnew
    · exact hkp _ hkee hmid
    · cases mem_singleton.mp hnew
      rfl
  | stamped _ hno =>
    rw [hrev] at hno
    cases hno

theorem Accounted.next {h : History} (hacc : Accounted w h s)
    (a : Action) : Accounted w (h++[perform (step w) s a]) (step w s a).2 := by
  have hks := step_keyStep (w := w) hacc.aligned a
  have hmar : ∀ {token}, SignsInByPassword token (perform (step w) s a) ↔
      (step w s a).1=.signedIn token∧signsInByPassword a=true := Iff.rfl
  have hlif : ReplacesPassword (perform (step w) s a) ↔
      replacesPassword a (step w s a).1=true := Iff.rfl
  refine ⟨step_sound hinj hacc.sound a,⟨hks.1.epochs,fun hrev => ?_⟩,
    hacc.step_stepUps hinj a,?_,?_,?_⟩
  · rcases hks.1.review hrev with hpen|hnon
    · exact step_review hinj hacc.sound hacc.aligned hpen a
    · intro x hx
      rw [hnon] at hx
      cases hx
  · intro x hx
    rw [since_append,hmar,hlif]
    rcases step_origin hinj hacc.sound a hx with
      ⟨old,hold,htok,hpro,hver,-⟩|⟨hfre,hans,hpas,hver,-⟩
    · have hno : ¬ (step w s a).1=.signedIn x.token := by
        intro hsig
        have hle := (step_signedIn hinj hacc.sound a hsig).1
        have hlt := hacc.sound.drawn old hold
        omega
      have hbou := hacc.versions old hold
      rw [htok,hpro,hver,← hacc.signIns old hold,hks.2]
      rw [htok] at hno
      cases replacesPassword a (step w s a).1 with
      | true =>
        constructor
        · rintro ⟨-,heq⟩
          rw [if_pos rfl] at heq
          omega
        · rintro (hsig|⟨-,hfl⟩)
          · exact absurd hsig.1 hno
          · exact absurd rfl hfl
      | false =>
        constructor
        · exact fun hkp => .inr ⟨hkp,Bool.false_ne_true⟩
        · rintro (hsig|⟨hkp,-⟩)
          · exact absurd hsig.1 hno
          · exact hkp
    · have hnot := replacesPassword_signedIn hans
      rw [hks.2,hnot,hver,hpas]
      constructor
      · rintro ⟨hpro,-⟩
        exact .inl ⟨hans,hpro⟩
      · rintro (⟨-,hpro⟩|⟨hsin,-⟩)
        · exact ⟨hpro,by simp⟩
        · have := hacc.past _ hsin
          omega
  · intro x hx
    rw [hks.2]
    rcases step_origin hinj hacc.sound a hx with
      ⟨old,hold,-,-,hver,-⟩|⟨-,-,-,hver,-⟩
    · have hbou := hacc.versions old hold
      split <;> omega
    · split <;> omega
  · intro token hsin
    obtain ⟨mid,hkee,hnx,-⟩ := step_spent hinj hacc.sound a
    rcases since_append.mp hsin with hsig|⟨hpa,-⟩
    · exact (step_signedIn hinj hacc.sound a hsig.1).2
    · exact (hacc.past token hpa).trans_le (hkee.next.trans hnx)

theorem run_accounted (hsta : Opening w start) {h : History}
    (hrun : Run (step w) (fun _ _ _ => True) start h s) : Accounted w h s :=
  Run.invariant (P := Accounted w) hrun hsta.accounted fun _ _ a hacc _ => hacc.next hinj a

end

theorem isSteppedUp_iff {now : ℕ} {x : Session} :
    isSteppedUp w s token now x=true ↔ x.token=token∧isLive w now x=true ∧
      (∃ t, x.stepUpAt=some t∧now<t+stepUpWindow) ∧
      x.stepUpEpoch=some s.securityEpoch := by
  simp only [isSteppedUp,Bool.and_eq_true,decide_eq_true_eq,Option.any_eq_true,and_assoc]

theorem isFresh_iff {now : ℕ} {x : Session} :
    isFresh w token now x=true ↔
      x.token=token∧isLive w now x=true∧now<x.createdAt+freshEnroll := by
  simp only [isFresh,Bool.and_eq_true,decide_eq_true_eq,and_assoc]

/-- A stored passkey was enrolled by a live session with a step-up that counts, or
by a young one of an account without a second factor. -/
theorem adminRegisterVerify_enrolled {id now : ℕ} {r : Registration}
    (h : (step w s (.adminRegisterVerify token r now)).1=.enrolled id) :
    (∃ x∈s.sessions, isSteppedUp w s token now x=true) ∨
      (s.totp=none∧s.passkeys=[]∧∃ x∈s.sessions, isFresh w token now x=true) := by
  simp only [step,underReview] at h
  split_ifs at h
  unfold adminRegisterVerify at h
  cases hses : lockEnrollSession w s token now with
  | none =>
    rw [hses] at h
    cases h
  | some x =>
    unfold lockEnrollSession at hses
    cases hste : s.sessions.find? (isSteppedUp w s token now) with
    | some y => exact .inl ⟨y,mem_of_find?_eq_some hste,List.find?_some hste⟩
    | none =>
      rw [hste] at hses
      dsimp only at hses
      split_ifs at hses with hfac
      simp only [Bool.or_eq_true,not_or,Bool.not_eq_true,Option.isSome_eq_false_iff,
        Option.isNone_iff_eq_none,Bool.not_eq_false',List.isEmpty_iff] at hfac
      exact .inr ⟨hfac.1,hfac.2,x,mem_of_find?_eq_some hses,List.find?_some hses⟩

/-- Whenever a passkey is stored, the calling session holds a step-up of its own or
a sign-in of its own that proved a credential still held, exactly when it holds a
step-up or the password that created it was not replaced since. -/
theorem enrolment_proved_iff (hinj : Function.Injective w.sha256) (hstart : Opening w start)
    {h : History} (hrun : Run (step w) (fun _ _ _ => True) start h s)
    (h₁ h₂ : History) (e : Event Account Action Answer) (hsplit : h=h₁++e::h₂)
    (token id now : ℕ) (r : Registration) (haction : e.action=.adminRegisterVerify token r now)
    (hstored : e.result=.enrolled id) :
    (HoldsStepUp h₁ e.before token now∨HoldsSignIn e.before token now) ↔
      ((∃ x∈e.before.sessions, isSteppedUp w e.before token now x=true) ∨
        Since (SignsInByPassword token) ReplacesPassword h₁) := by
  subst hsplit
  obtain ⟨hpa,-,heve⟩ := Run.split hrun
  have hacc := run_accounted hinj hstart hpa
  rw [heve,haction] at hstored
  have henr := adminRegisterVerify_enrolled hstored
  constructor
  · rintro (⟨x,hx,htok,t,hat,hrec,hepo,-⟩|⟨-,hks,x,hx,htok,-,hhd⟩)
    · left
      have hlv : isLive w now x=true := by
        rcases henr with ⟨y,hy,hste⟩|⟨-,-,y,hy,hfre⟩
        · obtain ⟨heq,hlv,-⟩ := isSteppedUp_iff.mp hste
          cases eq_of_key_eq Session.token hacc.sound.tokens hx hy (htok.trans heq.symm)
          exact hlv
        · obtain ⟨heq,hlv,-⟩ := isFresh_iff.mp hfre
          cases eq_of_key_eq Session.token hacc.sound.tokens hx hy (htok.trans heq.symm)
          exact hlv
      exact ⟨x,hx,isSteppedUp_iff.mpr ⟨htok,hlv,⟨t,hat,hrec⟩,hepo⟩⟩
    · right
      rw [← htok,← hacc.signIns x hx]
      unfold StillHeld at hhd
      cases hpro : x.proof with
      | password =>
        rw [hpro] at hhd
        exact ⟨rfl,hhd⟩
      | passkey =>
        rw [hpro] at hhd
        obtain ⟨p,hp,-⟩ := hhd
        rw [hks] at hp
        cases hp
      | handoff =>
        rw [hpro] at hhd
        exact hhd.elim
  · have hstepUp : (∃ x∈e.before.sessions, isSteppedUp w e.before token now x=true) →
        HoldsStepUp h₁ e.before token now := by
      rintro ⟨x,hx,hste⟩
      obtain ⟨htok,-,⟨t,hat,hrec⟩,hepo⟩ := isSteppedUp_iff.mp hste
      exact ⟨x,hx,htok,t,hat,hrec,hepo,htok ▸ hacc.stepUps x hx t hat⟩
    rintro (hste|hsin)
    · exact .inl (hstepUp hste)
    · rcases henr with hste|⟨htot,hks,x,hx,hfre⟩
      · exact .inl (hstepUp hste)
      obtain ⟨htok,-,hyou⟩ := isFresh_iff.mp hfre
      refine .inr ⟨htot,hks,x,hx,htok,hyou,?_⟩
      obtain ⟨hpro,hver⟩ := (hacc.signIns x hx).mpr (htok ▸ hsin)
      unfold StillHeld
      cases hkd : x.proof with
      | password => exact hver
      | passkey | handoff => rw [hkd] at hpro; cases hpro

theorem newAccount_opening (w : World) : Opening w newAccount where
  sound := newAccount_sound w
  epochs := nofun
  sessions := rfl

/-- A password sign-in enrols the first passkey of the account. -/
def firstPasskey : List Action :=
  [.createAdminSessionIfCredential "first" false (some (⟨0,none,none⟩,none)) 1000,
    .adminRegisterOptions 0 2000]

/-- The registration of a passkey by the session 0. -/
def firstRegistration : Action := .adminRegisterVerify 0 ⟨1,2,some ("laptop",0),[]⟩ 3000

theorem firstPasskey_run :
    Run (step sampleWorld) (fun _ _ _ => True) newAccount
      (play (step sampleWorld) [] newAccount (firstPasskey++[firstRegistration])).1
      (play (step sampleWorld) [] newAccount (firstPasskey++[firstRegistration])).2 :=
  Run.play Run.nil _ ⟨trivial,trivial,trivial,trivial⟩

/-- The session that enrols it holds a sign-in of its own. -/
theorem enrolment_proved_iff_first :
    (play (step sampleWorld) [] newAccount firstPasskey).2.passkeys=[] ∧
      (HoldsStepUp (play (step sampleWorld) [] newAccount firstPasskey).1
          (play (step sampleWorld) [] newAccount firstPasskey).2 0 3000 ∨
        HoldsSignIn (play (step sampleWorld) [] newAccount firstPasskey).2 0 3000) := by
  refine ⟨by decide,?_⟩
  refine (enrolment_proved_iff (w := sampleWorld) (fun _ _ h => h) (newAccount_opening sampleWorld)
    firstPasskey_run (play (step sampleWorld) [] newAccount firstPasskey).1 []
    (perform (step sampleWorld) (play (step sampleWorld) [] newAccount firstPasskey).2
      firstRegistration) rfl 0 3 3000 ⟨1,2,some ("laptop",0),[]⟩ rfl (by decide)).mpr (.inr ?_)
  exact ⟨[],_,[_],rfl,⟨by decide,rfl⟩,fun e he => by
    cases mem_singleton.mp he
    exact Bool.false_ne_true⟩

/-- A browser signs in and hands its session over, and the hub starts a
registration with the session it got. -/
def hubRegistration : List Action :=
  [.createAdminSessionIfCredential "first" false (some (⟨0,none,none⟩,none)) 1000,
    .issueHandoffCode ⟨0,some 1000,none,none,0⟩
      ⟨"hub", "https://hub.example/callback", "verifier",true⟩ 2000,
    .takeHandoffCode ⟨"hub", "hub secret", "https://hub.example/callback",1, "verifier",true⟩ 3000,
    .redeemHandoffCode 1 3000,.adminRegisterOptions 2 4000]

/-- The hub stores a passkey of its own as the first second factor, although its
session proved no credential and holds no step-up. -/
theorem hub_session_enrols_passkey :
    Run (step sampleWorld) (fun _ _ _ => True) newAccount
        (play (step sampleWorld) [] newAccount hubRegistration).1
        (play (step sampleWorld) [] newAccount hubRegistration).2 ∧
      (step sampleWorld (play (step sampleWorld) [] newAccount hubRegistration).2
        (.adminRegisterVerify 2 ⟨3,4,some ("hub key",0),[]⟩ 5000)).1=.enrolled 5 ∧
      ¬ (HoldsStepUp (play (step sampleWorld) [] newAccount hubRegistration).1
          (play (step sampleWorld) [] newAccount hubRegistration).2 2 5000 ∨
        HoldsSignIn (play (step sampleWorld) [] newAccount hubRegistration).2 2 5000) := by
  refine ⟨.play Run.nil _ ⟨trivial,trivial,trivial,trivial,trivial,trivial⟩,by decide,?_⟩
  have hrs : ∀ x∈(play (step sampleWorld) [] newAccount hubRegistration).2.sessions,
      x.token=2→x.stepUpAt=none∧x.proof=.handoff 0 0 := by decide
  rintro (⟨x,hx,htok,t,hat,-⟩|⟨-,-,x,hx,htok,-,hhd⟩)
  · rw [(hrs x hx htok).1] at hat
    cases hat
  · unfold StillHeld at hhd
    rw [(hrs x hx htok).2] at hhd
    exact hhd

end SellRight.PasskeyEnrolment
