import SellRight.AdminHandoffSteps
import SellRight.PasskeyEnrolment

/-!
# A handoff code dies with the sign-in it stands for

Over every run in which requests bring what they read: a code becomes at most one
session, for the client, callback and verifier it was issued for and while its
issuing session lives. A reset, a password change by another session and a change
of the authenticator end every earlier code. A handed-over session needs a step-up
of its own before it issues a code.
-/

namespace SellRight.AdminHandoffSafety

open RowTable RowDescent RunHistory AdminAccount AdminSignIn AdminCredentials AdminTokens List
open AdminSessionSteps AdminSessionSafety PasskeyEpochs PasskeyEnrolment AdminHandoffSteps

variable {w : World} {s : Account} {start : Account} {h : History}

/-- What `resolveAdmin` returns of a session and its account. The age of a
handed-over session is left out. -/
def principalOf (s : Account) (x : Session) : Principal where
  sessionId := x.token
  sessionCreatedAt := if x.handoffClientId.isSome then none else some x.createdAt
  stepUpAt := x.stepUpAt
  stepUpEpoch := x.stepUpEpoch
  securityEpoch := s.securityEpoch

/-- The states that a run has met. -/
def met (h : History) (s : Account) : List Account := h.map Event.before++[s]

/-- Requests bring what they read before: a principal of a session, and a secret
opened from its stored form. -/
def Informed (w : World) (h : History) (s : Account) : Action → Prop
  | .issueHandoffCode p _ _ =>
    p∈(met h s).flatMap fun seen => seen.sessions.map (principalOf seen)
  | .mutateAdminSecondFactor change _ => change.totpSecret=change.totpVersion.map w.openTotp
  | _ => True

instance (w : World) (h : History) (s : Account) : DecidablePred (Informed w h s) := by
  intro a
  unfold Informed
  split <;> infer_instance

def IssuesCode (n : ℕ) (p : Principal) (ask : Authorize) (now : ℕ)
    (e : Event Account Action Answer) : Prop :=
  e.action=.issueHandoffCode p ask now∧e.result=.issued n

def TakesCode (r : Redemption) (now : ℕ) (e : Event Account Action Answer) : Prop :=
  e.action=.takeHandoffCode r now∧e.result=.done

/-- The event turns a code into a session. -/
def MintsSession (n token : ℕ) (e : Event Account Action Answer) : Prop :=
  (∃ now, e.action=.redeemHandoffCode n now)∧e.result=.signedIn token

/-- The event ends the codes issued by a session: a reset, a password change by
another session, or an authenticator enrolled or removed. -/
def revokesCodes (e : Event Account Action Answer) (issuer : ℕ) : Bool :=
  match e.action with
  | .redeemPasswordReset _ _ _ => decide (e.result=.done)
  | .changeAdminPassword _ _ keep _ _ => decide (e.result≠.refused)&&decide (issuer≠keep)
  | .mutateAdminSecondFactor change _ =>
    decide (e.result=.done)&&decide (change.action≠.recovery)
  | _ => false

/-- The event ends a session: a reset, or a password change or the enrolment of an
authenticator by another session. -/
def revokesSession (e : Event Account Action Answer) (token : ℕ) : Bool :=
  match e.action with
  | .redeemPasswordReset _ _ _ => decide (e.result=.done)
  | .changeAdminPassword _ _ keep _ _ => decide (e.result≠.refused)&&decide (token≠keep)
  | .mutateAdminSecondFactor change _ =>
    decide (e.result=.done)&&decide (change.action=.enable)&&decide (token≠change.token)
  | _ => false

/-- The session of this token has ended for good. -/
def Gone (token : ℕ) (s : Account) : Prop := token<s.next∧∀ x∈s.sessions, x.token≠token

/-- No code of this value can be redeemed any more. -/
def Dead (n : ℕ) (s : Account) : Prop := n<s.next∧∀ row∈allCodes s, row.code=n →
    row.epoch<s.securityEpoch∨Gone row.sessionId s

/-- What the past of a run says about the codes. -/
structure Tracked (w : World) (h : History) (s : Account) : Prop where
  sound : Sound w s
  /-- An issued code is drawn, and its row is that of its request. -/
  issued : ∀ e∈h, ∀ n p ask now, IssuesCode n p ask now e →
    n<s.next∧p.sessionId<s.next∧p.securityEpoch ≤ s.securityEpoch ∧
      ∀ row∈allCodes s, row.code=n → row=issuedCode n p ask now
  stored : ∀ row∈allCodes s, ∃ e∈h, ∃ p ask now, IssuesCode row.code p ask now e
  taken : ∀ row∈s.takenCodes, ∃ e∈h, ∃ r now, TakesCode r now e∧Presents w r row∧now<row.expiresAt
  epochs : ∀ e∈h, e.before.securityEpoch ≤ s.securityEpoch
  created : ∀ e∈h, ∀ token, e.result=.signedIn token→token<s.next

/-- An account whose sessions have all ended and that holds no code. -/
structure Quiet (w : World) (s : Account) : Prop where
  opening : Opening w s
  codes : allCodes s=[]

theorem Quiet.tracked (hq : Quiet w s) : Tracked w [] s where
  sound := hq.opening.sound
  issued := fun _ he => by cases he
  stored := fun row hrow => by rw [hq.codes] at hrow; cases hrow
  taken := fun row hrow => by
    have hmem : row∈allCodes s := mem_append_right _ hrow
    rw [hq.codes] at hmem
    cases hmem
  epochs := fun _ he => by cases he
  created := fun _ he => by cases he

section
variable (hinj : Function.Injective w.sha256)
include hinj

/-- The counter does not go back. -/
theorem step_next (hsd : Sound w s) (a : Action) :
    s.next≤(step w s a).2.next := by
  obtain ⟨mid,hkee,hnx,-⟩ := step_spent hinj hsd a
  exact hkee.next.trans hnx

theorem step_allCodes (hsd : Sound w s) (a : Action)
    {row : HandoffCode} (hrow : row∈allCodes (step w s a).2) :
    row∈allCodes s∨∃ p ask now, a=.issueHandoffCode p ask now ∧
      (step w s a).1=.issued row.code∧row=issuedCode row.code p ask now := by
  have hcod := step_codes hinj hsd.digests a
  rcases mem_append.mp hrow with hsto|htk
  · rcases hcod.stored row hsto with hold|hnew
    · exact .inl (mem_append_left _ hold)
    · exact .inr hnew
  · rcases hcod.taken row htk with hold|⟨r,now,-,-,hold,-⟩
    · exact .inl (mem_append_right _ hold)
    · exact .inl (mem_append_left _ hold)

theorem Tracked.next (htra : Tracked w h s) (a : Action)
    (hinf : Informed w h s a) : Tracked w (h++[perform (step w) s a]) (step w s a).2 := by
  have hsd := step_sound hinj htra.sound a
  have hcod := step_codes hinj htra.sound.digests a
  have hnx := step_next hinj htra.sound a
  refine ⟨hsd,?_,?_,?_,?_,?_⟩
  · intro e he n p ask now hiss
    rcases mem_append.mp he with hold|hnew
    · obtain ⟨hdra,hses,hepo,hrow⟩ := htra.issued e hold n p ask now hiss
      refine ⟨hdra.trans_le hnx,hses.trans_le hnx,hepo.trans hcod.epoch,?_⟩
      intro row hmem hcode
      rcases step_allCodes hinj htra.sound a hmem with hkp|⟨p',ask',now',rfl,hans,-⟩
      · exact hrow row hkp hcode
      · have hfre := (issueHandoffCode_issued hans).1
        omega
    · cases mem_singleton.mp hnew
      obtain ⟨hact,hans⟩ := hiss
      have hact' : a=.issueHandoffCode p ask now := hact
      subst hact'
      have hans' : (step w s (.issueHandoffCode p ask now)).1=.issued n := hans
      obtain ⟨hn,hlat,-,x,hx,hxid⟩ := issueHandoffCode_issued hans'
      have hxdr := htra.sound.drawn x hx
      have hepo : p.securityEpoch ≤ s.securityEpoch := by
        obtain ⟨seen,hsee,hp⟩ := mem_flatMap.mp hinf
        obtain ⟨y,-,rfl⟩ := mem_map.mp hp
        rcases mem_append.mp hsee with hpa|hnow
        · obtain ⟨past,hmem,rfl⟩ := mem_map.mp hpa
          exact htra.epochs past hmem
        · cases mem_singleton.mp hnow
          exact le_refl _
      refine ⟨by omega,by omega,hepo.trans hcod.epoch,fun row hmem hcode => ?_⟩
      rcases step_allCodes hinj htra.sound _ hmem with hkp|⟨p',ask',now',heq,-,hrow⟩
      · have hold : row.code<s.next := htra.sound.codesDrawn row hkp
        omega
      · cases heq
        rw [hrow,hcode]
  · intro row hmem
    rcases step_allCodes hinj htra.sound a hmem with hkp|⟨p,ask,now,hact,hans,-⟩
    · obtain ⟨e,he,hiss⟩ := htra.stored row hkp
      exact ⟨e,mem_append_left _ he,hiss⟩
    · exact ⟨_,mem_append_right _ (mem_singleton.mpr rfl),p,ask,now,hact,hans⟩
  · intro row hmem
    rcases hcod.taken row hmem with hkp|⟨r,now,hact,hans,-,hpre,hlv⟩
    · obtain ⟨e,he,htak⟩ := htra.taken row hkp
      exact ⟨e,mem_append_left _ he,htak⟩
    · exact ⟨_,mem_append_right _ (mem_singleton.mpr rfl),r,now,⟨hact,hans⟩,hpre,hlv⟩
  · intro e he
    rcases mem_append.mp he with hold|hnew
    · exact (htra.epochs e hold).trans hcod.epoch
    · cases mem_singleton.mp hnew
      exact hcod.epoch
  · intro e he token hsig
    rcases mem_append.mp he with hold|hnew
    · exact (htra.created e hold token hsig).trans_le hnx
    · cases mem_singleton.mp hnew
      exact (step_signedIn hinj htra.sound a hsig).2

theorem run_tracked (hsta : Quiet w start)
    (hrun : Run (step w) (Informed w) start h s) : Tracked w h s :=
  Run.invariant (P := Tracked w) hrun hsta.tracked fun _ _ a htra hinf => htra.next hinj a hinf

end

variable {token n now : ℕ} {e : Event Account Action Answer}

section
variable (hinj : Function.Injective w.sha256) (hsd : Sound w s) (a : Action)
include hinj hsd

/-- A session that has ended stays ended. -/
theorem step_gone (hgn : Gone token s) : Gone token (step w s a).2 := by
  refine ⟨hgn.1.trans_le (step_next hinj hsd a),fun x hx heq => ?_⟩
  rcases step_origin hinj hsd a hx with ⟨old,hold,htok,-⟩|⟨hfre,-⟩
  · exact hgn.2 old hold (htok.symm.trans heq)
  · have hdra := hgn.1
    omega

theorem step_dead (hdd : Dead n s) : Dead n (step w s a).2 := by
  refine ⟨hdd.1.trans_le (step_next hinj hsd a),fun row hrow hcod => ?_⟩
  rcases step_allCodes hinj hsd a hrow with hkp|⟨p,ask,now,rfl,hans,-⟩
  · rcases hdd.2 row hkp hcod with hepo|hgn
    · exact .inl (hepo.trans_le (step_codes hinj hsd.digests a).epoch)
    · exact .inr (step_gone hinj hsd a hgn)
  · have hfre := (issueHandoffCode_issued hans).1
    have hdra := hdd.1
    omega

end

theorem Dead.not_minted (hdd : Dead n s) :
    (redeemHandoffCode w s n now).1≠.signedIn token := by
  intro hmin
  obtain ⟨-,row,hrow,hcod,hepo,own,hown,hses,-⟩ := redeemHandoffCode_minted hmin
  rcases hdd.2 row (mem_append_right _ hrow) hcod with hpas|hgn
  · omega
  · exact hgn.2 own hown hses

section
variable (hinj : Function.Injective w.sha256)
include hinj

/-- A step that ends a session leaves no row of it. -/
theorem revokesSession_gone (hsd : Sound w s) {a : Action}
    (hinf : Informed w h s a) (hdra : token<s.next)
    (hrev : revokesSession (perform (step w) s a) token=true) :
    Gone token (step w s a).2 := by
  refine ⟨hdra.trans_le (step_next hinj hsd a),fun x hx heq => ?_⟩
  cases a with
  | redeemPasswordReset link new now =>
    have hno : (step w s (.redeemPasswordReset link new now)).2.sessions=[] :=
      redeemPasswordReset_sessions (of_decide_eq_true hrev)
    rw [hno] at hx
    cases hx
  | changeAdminPassword old new keep captured now =>
    obtain ⟨hdn,hot⟩ := (Bool.and_eq_true _ _).mp hrev
    have hdn : (step w s (.changeAdminPassword old new keep captured now)).1≠.refused :=
      of_decide_eq_true hdn
    have hot : token≠keep := of_decide_eq_true hot
    simp only [step,underReview] at hdn hx
    split at hdn
    · exact hdn rfl
    · next hrevi =>
      rw [if_neg hrevi] at hx
      have htok := (changeAdminPassword_sessions hsd hdn).2
      have hmem := mem_map_of_mem (f := Session.token) hx
      rw [htok,mem_singleton] at hmem
      exact hot (heq.symm.trans hmem)
  | mutateAdminSecondFactor change now =>
    obtain ⟨hrev,hot⟩ := (Bool.and_eq_true _ _).mp hrev
    obtain ⟨hdn,hena⟩ := (Bool.and_eq_true _ _).mp hrev
    have hdn : (step w s (.mutateAdminSecondFactor change now)).1=.done :=
      of_decide_eq_true hdn
    have hena : change.action=.enable := of_decide_eq_true hena
    have hot : token≠change.token := of_decide_eq_true hot
    simp only [step,underReview] at hdn hx
    split_ifs at hdn with hrevi
    rw [if_neg hrevi] at hx
    have hcha : change.action≠.recovery := fun hrec => by
      rw [hena] at hrec
      cases hrec
    have hkp := (mutateAdminSecondFactor_changed hinf hcha hdn).2 hena x hx
    exact hot (heq.symm.trans hkp)
  | _ => cases hrev

/-- A step that ends the codes of a session leaves none that can be redeemed. -/
theorem revokesCodes_dead (htra : Tracked w h s) {a : Action} (hinf : Informed w h s a) (he : e∈h)
    {p : Principal} {ask : Authorize} (hiss : IssuesCode n p ask now e)
    (hrev : revokesCodes (perform (step w) s a) p.sessionId=true) :
    Dead n (step w s a).2 := by
  obtain ⟨-,hses,hepo,-⟩ := htra.issued e he n p ask now hiss
  obtain ⟨hdra',-,-,hrow'⟩ := (htra.next hinj a hinf).issued e
    (mem_append_left _ he) n p ask now hiss
  refine ⟨hdra',fun row hrow hcod => ?_⟩
  cases hrow' row hrow hcod
  cases a with
  | redeemPasswordReset | changeAdminPassword =>
    exact .inr (revokesSession_gone hinj htra.sound hinf hses hrev)
  | mutateAdminSecondFactor change now' =>
    left
    obtain ⟨hdn,hcha⟩ := (Bool.and_eq_true _ _).mp hrev
    have hdn : (step w s (.mutateAdminSecondFactor change now')).1=.done :=
      of_decide_eq_true hdn
    have hcha : change.action≠.recovery := of_decide_eq_true hcha
    simp only [step,underReview] at hdn ⊢
    split_ifs at hdn with hrevi
    rw [if_neg hrevi]
    have hrai := (mutateAdminSecondFactor_changed hinf hcha hdn).1
    exact hepo.trans_lt hrai
  | _ => cases hrev

/-- A redemption that minted a session met the code of its request, presented
before it expired, and the live session that asked for it. -/
theorem minted_binding (hsta : Quiet w start) {h₁ h₂ : History}
    (hrun : Run (step w) (Informed w) start (h₁++e::h₂) s)
    (hact : e.action=.redeemHandoffCode n now) (hmin : e.result=.signedIn token) :
    ∃ issue∈h₁, ∃ p ask issuedAt, IssuesCode n p ask issuedAt issue ∧
      ∃ take∈h₁, ∃ r takenAt, TakesCode r takenAt take ∧
        Presents w r (issuedCode n p ask issuedAt)∧takenAt < issuedAt+handoffCodeTtl ∧
        p.securityEpoch=e.before.securityEpoch ∧
        ∃ own∈e.before.sessions, own.token=p.sessionId∧isLive w now own=true := by
  obtain ⟨hpa,-,heve⟩ := Run.split hrun
  have htra := run_tracked hinj hsta hpa
  rw [heve,hact] at hmin
  obtain ⟨-,row,hrow,hcod,hepo,own,hown,hses,hlv⟩ :=
    redeemHandoffCode_minted (w := w) (s := e.before) hmin
  have hmem : row∈allCodes e.before := mem_append_right _ hrow
  obtain ⟨issue,hissue,p,ask,issuedAt,hiss⟩ := htra.stored row hmem
  obtain ⟨take,htak,r,takenAt,htakes,hpre,htim⟩ := htra.taken row hrow
  have heq := (htra.issued issue hissue _ p ask issuedAt hiss).2.2.2 row hmem rfl
  rw [hcod] at hiss heq
  rw [heq] at hpre htim hepo hses
  exact ⟨issue,hissue,p,ask,issuedAt,hiss,take,htak,r,takenAt,htakes,hpre,
    htim,hepo,own,hown,hses,hlv⟩

theorem issued_stepUp (hstart : Quiet w start) {h₁ h₂ : History}
    (hrun : Run (step w) (Informed w) start (h₁++e::h₂) s) {p : Principal}
    {ask : Authorize} (hiss : IssuesCode n p ask now e) (hnow : handoffFreshAuth<now)
    {seen : Account} (hsee : seen∈met h₁ e.before) {x : Session} (hx : x∈seen.sessions)
    (hp : p=principalOf seen x) (hub : x.handoffClientId.isSome=true) :
    ∃ stamp∈h₁, ∃ t, Stamps x.token t stamp∧now≤t+handoffFreshAuth := by
  obtain ⟨hpa,-,heve⟩ := Run.split hrun
  have hans : (step w e.before (.issueHandoffCode p ask now)).1=.issued n := by
    rw [← hiss.1]
    exact (congrArg Event.result heve).symm.trans hiss.2
  have hfre := (issueHandoffCode_issued hans).2.2.1
  rw [hp] at hfre
  have hcre : (principalOf seen x).sessionCreatedAt=none := if_pos hub
  rw [freshAt,hcre] at hfre
  have hpre : ∃ g, (∀ old∈g, old∈h₁)∧Run (step w) (Informed w) start g seen := by
    rcases mem_append.mp hsee with hold|hlt
    · obtain ⟨old,hmem,rfl⟩ := mem_map.mp hold
      obtain ⟨g₁,g₂,rfl⟩ := append_of_mem hmem
      exact ⟨g₁,fun _ hin => mem_append_left _ hin,(Run.split hpa).1⟩
    · cases mem_singleton.mp hlt
      exact ⟨h₁,fun _ hin => hin,hpa⟩
  obtain ⟨g,hsub,hrea⟩ := hpre
  have hacc := run_accounted hinj hstart.opening (.mono (fun _ _ _ _ => trivial) hrea)
  cases hstep : x.stepUpAt with
  | none =>
    have hno : (principalOf seen x).stepUpAt=none := hstep
    rw [hno] at hfre
    simp only [Option.getD_none,ite_self,max_self] at hfre
    omega
  | some t =>
    obtain ⟨g₁,stamp,g₂,hspl,hsta,-⟩ := hacc.stepUps x hx t hstep
    refine ⟨stamp,hsub stamp (by rw [hspl]; simp),t,hsta,?_⟩
    have hso : (principalOf seen x).stepUpAt=some t := hstep
    rw [hso] at hfre
    simp only [Option.getD_none,Option.getD_some] at hfre
    split at hfre
    · omega
    · omega

/-- In every run of informed requests: a code becomes at most one session; it becomes
one only for the client, callback and verifier that it was issued for, presented
before it expired, while the issuing session is live; after a reset, a password
change by another session, or an authenticator enrolled or removed, no earlier code
becomes one; a reset, and a password change or an enrolment by another session, end
the sessions minted before; and a handed-over session issues a code only after a
step-up of its own in the last ten minutes. -/
theorem codes_follow_sign_ins (hstart : Quiet w start)
    (hrun : Run (step w) (Informed w) start h s) :
    (∀ n, h.countP (mints n)≤1)∧∀ h₁ e h₂, h=h₁++e::h₂ →
        (∀ n now token, e.action=.redeemHandoffCode n now→e.result=.signedIn token →
          ∃ issue∈h₁, ∃ p ask issuedAt, IssuesCode n p ask issuedAt issue ∧
            ∃ take∈h₁, ∃ r takenAt, TakesCode r takenAt take ∧
              Presents w r (issuedCode n p ask issuedAt)∧takenAt < issuedAt+handoffCodeTtl ∧
              p.securityEpoch=e.before.securityEpoch ∧
              ∃ own∈e.before.sessions, own.token=p.sessionId∧isLive w now own=true) ∧
        (∀ issue∈h₁, ∀ n p ask now, IssuesCode n p ask now issue →
          revokesCodes e p.sessionId=true→∀ later∈h₂, ∀ token, ¬ MintsSession n token later) ∧
        (∀ mint∈h₁, ∀ n token, MintsSession n token mint → revokesSession e token=true →
          ∀ later∈e::h₂, ∀ x∈later.after.sessions, x.token≠token) ∧
        (∀ n p ask now, IssuesCode n p ask now e→handoffFreshAuth<now →
          ∀ seen∈met h₁ e.before, ∀ x∈seen.sessions, p=principalOf seen x →
          x.handoffClientId.isSome=true →
          ∃ stamp∈h₁, ∃ t, Stamps x.token t stamp∧now≤t+handoffFreshAuth) := by
  refine ⟨fun n => ?_,fun h₁ e h₂ hspl => ⟨?_,?_,?_,?_⟩⟩
  · exact reached_once hinj hstart.opening.sound (.mono (fun _ _ _ _ => trivial) hrun)
      (P := CodeSpent n) (fun s a hsd => (step_stays_spent hinj hsd a n).2.1)
      fun s a hsd => mints_reaches hinj hsd a
  · intro n now token hact hminted
    exact minted_binding hinj hstart (hspl ▸ hrun) hact hminted
  · intro issue hiss n p ask now hissu hrev later hlat token hmin
    subst hspl
    obtain ⟨hpa,hinf,heve⟩ := Run.split hrun
    have htra := run_tracked hinj hstart hpa
    rw [heve] at hrev
    have hdd := revokesCodes_dead hinj htra hinf hiss hissu hrev
    have hsd := step_sound hinj htra.sound e.action
    have haft := Run.afterwards (P := fun s => Sound w s∧Dead n s) hrun
      (by rw [heve]; exact ⟨hsd,hdd⟩)
      fun _ s a hbo _ _ => ⟨step_sound hinj hbo.1 a,step_dead hinj hbo.1 a hbo.2⟩
    obtain ⟨g₁,g₂,rfl⟩ := append_of_mem hlat
    have hrun' : Run (step w) (Informed w) start ((h₁++e::g₁)++later::g₂) s := by
      simpa using hrun
    obtain ⟨-,-,hlate⟩ := Run.split hrun'
    obtain ⟨⟨now',hact⟩,hres⟩ := hmin
    rw [hlate,hact] at hres
    exact (haft.2 later hlat).1.2.not_minted hres
  · intro mint hmint n token hmin hrev
    subst hspl
    obtain ⟨hpa,hinf,heve⟩ := Run.split hrun
    have htra := run_tracked hinj hstart hpa
    have hdra := htra.created mint hmint token hmin.2
    rw [heve] at hrev
    have hgn : Sound w e.after∧Gone token e.after := by
      rw [heve]
      exact ⟨step_sound hinj htra.sound e.action,
        revokesSession_gone hinj htra.sound hinf hdra hrev⟩
    have haft := Run.afterwards (P := fun s => Sound w s∧Gone token s) hrun hgn
      fun _ s a hbo _ _ => ⟨step_sound hinj hbo.1 a,step_gone hinj hbo.1 a hbo.2⟩
    intro later hlat x hx
    rcases mem_cons.mp hlat with rfl|hrt
    · exact hgn.2.2 x hx
    · exact (haft.2 later hrt).2.2.2 x hx
  · intro n p ask now hiss hnow seen hsee x hx hp hub
    exact issued_stepUp hinj hstart (hspl ▸ hrun) hiss hnow hsee hx hp hub

end

/-- An account with an authenticator that nobody is signed in to. -/
def enrolledAccount : Account := {newAccount with totp := some "code" }

theorem enrolledAccount_quiet : Quiet sampleWorld enrolledAccount where
  opening := {
    sound := {newAccount_sound sampleWorld with}
    epochs := nofun
    sessions := rfl}
  codes := rfl

/-- What the browser that signed in at twenty minutes asks for. -/
def hubRequest : Authorize := ⟨"hub", "https://hub.example/callback", "verifier",true⟩

/-- How the hub redeems the code. -/
def hubRedemption : Redemption :=
  ⟨"hub", "hub secret", "https://hub.example/callback",1, "verifier",true⟩

/-- The authenticator is removed after its code was verified. -/
def removeAuthenticator : FactorChange :=
  ⟨0, "first",some "code",some "code",some 0,none,.disable,none,.digits "code",[],false⟩

/-- A browser signs in, hands its session over and removes the authenticator. -/
def removalRun : List Action :=
  [.createAdminSessionIfCredential "first" true (some (⟨0,some "code",none⟩,none)) 1200000,
    .issueHandoffCode ⟨0,some 1200000,none,none,0⟩ hubRequest 1210000,
    .takeHandoffCode hubRedemption 1220000,.redeemHandoffCode 1 1220000,
    .mutateAdminSecondFactor removeAuthenticator 1230000]

/-- A browser signs in, authorizes the hub, changes its password, and the hub
redeems the code. -/
def ownChangeRun : List Action :=
  [.createAdminSessionIfCredential "first" true (some (⟨0,some "code",none⟩,none)) 1200000,
    .markStepUpVerifiedIfCurrent 0 "first" ⟨0,some "code",none⟩ 1205000,
    .issueHandoffCode ⟨0,some 1200000,some 1205000,some 0,0⟩ hubRequest 1210000,
    .changeAdminPassword "first" "second" 0
      (some ⟨⟨0,some "code",none⟩,some 1205000,some 0⟩) 1215000,
    .takeHandoffCode hubRedemption 1220000,.redeemHandoffCode 1 1225000]

theorem removalRun_run :
    Run (step sampleWorld) (Informed sampleWorld) enrolledAccount
      (play (step sampleWorld) [] enrolledAccount removalRun).1
      (play (step sampleWorld) [] enrolledAccount removalRun).2 :=
  Run.play Run.nil removalRun ⟨trivial,by decide,trivial,trivial,rfl,trivial⟩

/-- The session minted from a code outlives the removal of the authenticator. A code
issued by the session that changes the password is redeemed after the change. -/
theorem codes_outlive_changes :
    (Run (step sampleWorld) (Informed sampleWorld) enrolledAccount
        (play (step sampleWorld) [] enrolledAccount removalRun).1
        (play (step sampleWorld) [] enrolledAccount removalRun).2 ∧
      (play (step sampleWorld) [] enrolledAccount removalRun).1.map Event.result =
        [.signedIn 0,.issued 1,.done,.signedIn 2,.done] ∧
      ∃ x∈(play (step sampleWorld) [] enrolledAccount removalRun).2.sessions,
        x.token=2∧isLive sampleWorld 1240000 x=true) ∧
    Run (step sampleWorld) (Informed sampleWorld) enrolledAccount
        (play (step sampleWorld) [] enrolledAccount ownChangeRun).1
        (play (step sampleWorld) [] enrolledAccount ownChangeRun).2 ∧
      (play (step sampleWorld) [] enrolledAccount ownChangeRun).1.map Event.result =
        [.signedIn 0,.done,.issued 1,.revoked 0,.done,.signedIn 2] := by
  refine ⟨⟨removalRun_run,by decide,by decide⟩,?_,by decide⟩
  exact .play Run.nil ownChangeRun ⟨trivial,trivial,by decide,trivial,trivial,trivial,trivial⟩

/-- The code handed over before the removal was minted for its client. -/
theorem codes_follow_sign_ins_hub :
    (play (step sampleWorld) [] enrolledAccount removalRun).1.countP (mints 1)=1 ∧
      ∃ issue∈(play (step sampleWorld) [] enrolledAccount (removalRun.take 3)).1,
        ∃ p ask issuedAt, IssuesCode 1 p ask issuedAt issue := by
  have hall := codes_follow_sign_ins (w := sampleWorld) (fun _ _ h => h) enrolledAccount_quiet
    removalRun_run
  refine ⟨le_antisymm (hall.1 1) (by decide),?_⟩
  obtain ⟨issue,hmem,p,ask,issuedAt,hiss,-⟩ :=
    (hall.2 (play (step sampleWorld) [] enrolledAccount (removalRun.take 3)).1
      (perform (step sampleWorld) (play (step sampleWorld) [] enrolledAccount (removalRun.take 3)).2
        (.redeemHandoffCode 1 1220000))
      [perform (step sampleWorld) (play (step sampleWorld) [] enrolledAccount (removalRun.take 4)).2
        (.mutateAdminSecondFactor removeAuthenticator 1230000)] rfl).1 1 1220000 2 rfl (by decide)
  exact ⟨issue,hmem,p,ask,issuedAt,hiss⟩

end SellRight.AdminHandoffSafety
