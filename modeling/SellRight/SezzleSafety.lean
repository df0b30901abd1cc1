import SellRight.SezzleRecovery
import SellRight.RunHistory

/-!
# A capture decision is final for a calm recovery

A pass in its locked part holds the pay lock, so the order and the persisted
decisions stay as its last transaction saw them. The promises about captures and
releases then hold at every provider call, in runs in which no pass takes the
lock with a stale decision about an attempt that is to be captured.
-/

namespace SellRight.SezzleSafety

open OrderLifecycle PaymentLedger SezzleRecovery RowTable RunHistory List

/-- A decision is persisted on an attempt. -/
def Decided (s : Shop) (id : String) (decision : CaptureDecision) : Prop :=
  ∃ a∈s.attempts, a.id=id∧a.captureDecision=some decision

/-- The order can be paid for exactly an amount. -/
def Payable (s : Shop) (amount : ℤ) : Prop := s.order.any (fun o => o.payable amount)=true

/-- Positions that hold the pay lock. -/
def inLock : Phase → Prop
  | .locked _ | .capturing | .captured | .releasing _ | .closing _ _ => True
  | _ => False

/-- What the position of a pass says about the order and its attempt. -/
def Fits (s : Shop) (a : Attempt) : Phase → Prop
  | .locked decision => Decided s a.id .capture→decision=.capture∧Payable s a.amount
  | .capturing => Decided s a.id .capture∧Payable s a.amount
  | .releasing _ | .closing _ _ => ¬ Decided s a.id .capture
  | _ => True

/-- Facts that every step keeps. -/
structure Sound (s : Shop) : Prop where
  attemptIds : (s.attempts.map Attempt.id).Nodup
  passIds : (s.passes.map Pass.id).Nodup
  copies : ∀ p∈s.passes, ∃ a∈s.attempts, a.id=p.attempt.id∧a.amount=p.attempt.amount
  holder : ∀ p∈s.passes, inLock p.phase→s.payLock=some p.id
  fits : ∀ p∈s.passes, Fits s p.attempt p.phase

/-- A step respects the pay lock and draws new identifiers. -/
def Admissible (s : Shop) : Action → Prop
  | .startPass id _ _ => ∀ p∈s.passes, p.id≠id
  | .verifyFirst _ _ | .verify _ _ => s.payLock=none
  | .startSession id _ _ _ _ _ _ => ∀ a∈s.attempts, a.id≠id
  | _ => True

/-- A verification does not decline an attempt that is to be captured. -/
def NotDeclined (s : Shop) (id : String) (r : Reading) : Prop :=
  ∀ a∈s.attempts, a.id=id→a.captureDecision=some .capture→a.status≠.settled →
    (createPayment a r).state≠.declined

/-- A decision that may enter the locked part if it does: an attempt that is to be
captured is captured, and the order is payable for it. -/
def MayEnter (s : Shop) (p : Pass) : Phase → Prop
  | .decided decision => (takeLock s p decision).1=.ran →
    Decided s p.attempt.id .capture→decision=.capture∧Payable s p.attempt.amount
  | _ => True

/-- A pass that takes the lock for an attempt that is to be captured decided to
capture and finds the order payable, and no verification declines the attempt. -/
def Steady (s : Shop) : Action → Prop
  | .lock id => ∀ p∈s.passes, p.id=id → MayEnter s p p.phase
  | .verify id r => NotDeclined s id r
  | .verifyFirst id r => ∀ p∈s.passes, p.id=id → NotDeclined s p.attempt.id r
  | _ => True

variable {s s' : Shop} {p : Pass} {id : String} {phase : Phase} {a : Action} {answer : Answer}
  {w : World}

theorem findPass_eq_some {id : ℕ} (h : findPass s id=some p) :
    p∈s.passes∧p.id=id :=
  find_key_eq_some Pass.id h

theorem findAttempt_eq_some {a : Attempt} (h : findAttempt s id=some a) :
    a∈s.attempts∧a.id=id :=
  find_key_eq_some Attempt.id h

/-- Positions outside the lock fit anything. -/
theorem fits_of_not_inLock {a : Attempt} (h : ¬ inLock phase) :
    Fits s a phase := by
  cases phase with
  | locked | capturing | releasing | closing => exact absurd trivial h
  | captured | started | verified | informed | decided => trivial

theorem Fits.congr (hatt : s'.attempts=s.attempts) (hord : s'.order=s.order)
    {a : Attempt} (h : Fits s a phase) : Fits s' a phase := by
  cases phase with
  | locked | capturing => simpa only [Fits,Decided,Payable,hatt,hord] using h
  | captured | started | verified | informed | decided => trivial
  | releasing | closing => simpa only [Fits,Decided,hatt] using h

/-- The rows of attempts after a step: identifiers and amounts stay, and
decisions stay. -/
structure KeepsRows (s s' : Shop) : Prop where
  attemptIds : (s.attempts.map Attempt.id).Nodup→(s'.attempts.map Attempt.id).Nodup
  /-- Every row stays, with its amount and its decision. -/
  kept : ∀ a∈s.attempts, ∃ a'∈s'.attempts, a'.id=a.id∧a'.amount=a.amount ∧
    ∀ decision, a.captureDecision=some decision→a'.captureDecision=some decision

theorem KeepsRows.same (h : s'.attempts=s.attempts) : KeepsRows s s' := by
  refine ⟨fun hids => h ▸ hids,fun a ha => ⟨a,h ▸ ha,rfl,rfl,fun _ hd => hd⟩⟩

theorem KeepsRows.update (id : String) {f : Attempt → Attempt}
    (h : s'.attempts=updateWhere (fun a => decide (a.id=id)) f s.attempts)
    (hid : ∀ a, (f a).id=a.id) (hamo : ∀ a, (f a).amount=a.amount)
    (hdec : ∀ a∈s.attempts, a.id=id→∀ decision, a.captureDecision=some decision →
      (f a).captureDecision=some decision) : KeepsRows s s' := by
  refine ⟨fun hids => h ▸ nodup_map_updateWhere Attempt.id hid hids,fun a ha => ?_⟩
  rw [h]
  by_cases hhit : a.id=id
  · exact ⟨f a,mem_updateWhere.mpr (.inl ⟨a,ha,by simpa using hhit,rfl⟩),hid a,hamo a,
      hdec a ha hhit⟩
  · exact ⟨a,mem_updateWhere.mpr (.inr ⟨ha,by simpa using hhit⟩),rfl,rfl,fun _ hd => hd⟩

theorem KeepsRows.trans {s'' : Shop} (h : KeepsRows s s') (h' : KeepsRows s' s'') :
    KeepsRows s s'' := by
  refine ⟨fun hids => h'.attemptIds (h.attemptIds hids),fun a ha => ?_⟩
  obtain ⟨b,hb,hid,hamo,hdec⟩ := h.kept a ha
  obtain ⟨c,hc,hid',hamo',hdec'⟩ := h'.kept b hb
  exact ⟨c,hc,hid'.trans hid,hamo'.trans hamo,fun decision hd => hdec' decision (hdec decision hd)⟩

/-- A persisted decision stays. -/
theorem KeepsRows.decided (h : KeepsRows s s')
    {decision : CaptureDecision} (hd : Decided s id decision) : Decided s' id decision := by
  obtain ⟨a,ha,hid,hdec⟩ := hd
  obtain ⟨a',ha',hid',-,hkp⟩ := h.kept a ha
  exact ⟨a',ha',hid'.trans hid,hkp decision hdec⟩

section
variable (hsd : Sound s)
include hsd

theorem Sound.decided_unique {d d' : CaptureDecision}
    (h : Decided s id d) (h' : Decided s id d') : d=d' := by
  obtain ⟨a,ha,hid,hd⟩ := h
  obtain ⟨a',ha',hid',hd'⟩ := h'
  cases eq_of_key_eq Attempt.id hsd.attemptIds ha ha' (hid.trans hid'.symm)
  exact Option.some.inj (hd.symm.trans hd')

/-- Without a holder every position is outside the lock. -/
theorem Sound.free (hlk : s.payLock=none)
    (hp : p∈s.passes) : ¬ inLock p.phase := by
  intro hin
  have hhd := hsd.holder p hp hin
  rw [hlk] at hhd
  cases hhd

/-- Rows change while nobody holds the lock. -/
theorem Sound.rows (hrs : KeepsRows s s')
    (hpas : s'.passes=s.passes) (hlk : s.payLock=none) : Sound s' := by
  refine ⟨hrs.attemptIds hsd.attemptIds,hpas ▸ hsd.passIds,?_,?_,?_⟩
  · intro p hp
    obtain ⟨a,ha,hid,hamo⟩ := hsd.copies p (hpas ▸ hp)
    obtain ⟨a',ha',hid',hamo',-⟩ := hrs.kept a ha
    exact ⟨a',ha',hid'.trans hid,hamo'.trans hamo⟩
  · intro p hp hin
    exact absurd hin (hsd.free hlk (hpas ▸ hp))
  · intro p hp
    exact fits_of_not_inLock (hsd.free hlk (hpas ▸ hp))

/-- A pass moves on, possibly after writing its attempt: the other passes fit
what it leaves behind, and so does its new position. -/
theorem Sound.move {id : ℕ} (hrs : KeepsRows s s') (hpas : s'.passes=s.passes)
    (hoth : ∀ q∈s.passes, q.id≠id→(inLock q.phase→s'.payLock=some q.id)∧Fits s' q.attempt q.phase)
    (hnew : ∀ p∈s.passes, p.id=id→(inLock phase→s'.payLock=some id) ∧
      Fits s' p.attempt phase) : Sound (SezzleRecovery.setPhase s' id phase) := by
  have hmem : ∀ p∈(SezzleRecovery.setPhase s' id phase).passes,
      (∃ old∈s.passes, old.id=id∧p = {old with phase := phase})∨(p∈s.passes∧p.id≠id) := by
    intro p hp
    rcases mem_updateWhere.mp hp with ⟨old,hold,hhit,rfl⟩|⟨hold,hms⟩
    · exact .inl ⟨old,hpas ▸ hold,of_decide_eq_true hhit,rfl⟩
    · exact .inr ⟨hpas ▸ hold,by simpa using hms⟩
  refine ⟨hrs.attemptIds hsd.attemptIds,?_,?_,?_,?_⟩
  · exact nodup_map_updateWhere Pass.id (fun _ => rfl) (hpas ▸ hsd.passIds)
  · intro p hp
    have hcop : ∃ a∈s.attempts, a.id=p.attempt.id∧a.amount=p.attempt.amount := by
      rcases hmem p hp with ⟨old,hold,-,rfl⟩|⟨hold,-⟩
      · exact hsd.copies old hold
      · exact hsd.copies p hold
    obtain ⟨a,ha,hid,hamo⟩ := hcop
    obtain ⟨a',ha',hid',hamo',-⟩ := hrs.kept a ha
    exact ⟨a',ha',hid'.trans hid,hamo'.trans hamo⟩
  · intro p hp hin
    rcases hmem p hp with ⟨old,hold,heq,rfl⟩|⟨hold,hne⟩
    · rw [heq]
      exact (hnew old hold heq).1 hin
    · exact (hoth p hold hne).1 hin
  · intro p hp
    rcases hmem p hp with ⟨old,hold,heq,rfl⟩|⟨hold,hne⟩
    · exact .congr rfl rfl (hnew old hold heq).2
    · exact .congr rfl rfl (hoth p hold hne).2

/-- A pass ends, possibly after writing its attempt. -/
theorem Sound.drop {id : ℕ} (hrs : KeepsRows s s') (hpas : s'.passes=s.passes)
    (hoth : ∀ q∈s.passes, q.id≠id→(inLock q.phase→s'.payLock=some q.id) ∧
      Fits s' q.attempt q.phase) : Sound (dropPass s' id) := by
  have hmem : ∀ p∈(dropPass s' id).passes, p∈s.passes∧p.id≠id := by
    intro p hp
    obtain ⟨hold,hne⟩ := mem_deleteWhere.mp hp
    exact ⟨hpas ▸ hold,by simpa using hne⟩
  refine ⟨hrs.attemptIds hsd.attemptIds,?_,?_,?_,?_⟩
  · exact nodup_map_deleteWhere Pass.id (hpas ▸ hsd.passIds)
  · intro p hp
    obtain ⟨a,ha,hid,hamo⟩ := hsd.copies p (hmem p hp).1
    obtain ⟨a',ha',hid',hamo',-⟩ := hrs.kept a ha
    exact ⟨a',ha',hid'.trans hid,hamo'.trans hamo⟩
  · intro p hp hin
    obtain ⟨hold,hne⟩ := hmem p hp
    have hhd := (hoth p hold hne).1 hin
    have hnot : ¬ s'.payLock=some id := by
      rw [hhd]
      exact fun h => hne (Option.some.inj h)
    change (if s'.payLock=some id then none else s'.payLock)=some p.id
    rw [if_neg hnot]
    exact hhd
  · intro p hp
    obtain ⟨hold,hne⟩ := hmem p hp
    exact .congr rfl rfl (hoth p hold hne).2

/-- The other passes fit a state with the same rows and the same holder. -/
theorem Sound.others (id : ℕ) : ∀ q∈s.passes, q.id≠id →
    (inLock q.phase→s.payLock=some q.id)∧Fits s q.attempt q.phase :=
  fun q hq _ => ⟨hsd.holder q hq,hsd.fits q hq⟩

theorem Sound.others_of_holder {id : ℕ} (hlk : s.payLock=some id)
    (s' : Shop) : ∀ q∈s.passes, q.id≠id →
      (inLock q.phase→s'.payLock=some q.id)∧Fits s' q.attempt q.phase := by
  intro q hq hne
  have hout : ¬ inLock q.phase := by
    intro hin
    have hhd := hsd.holder q hq hin
    rw [hlk] at hhd
    exact hne (Option.some.inj hhd).symm
  exact ⟨fun hin => absurd hin hout,fits_of_not_inLock hout⟩

end

/-- Answers that neither call the provider nor record a result. -/
def Quiet (answer : Answer) : Prop :=
  answer=.ran∨answer=.idle∨answer=.waits∨answer=.ended

/-- Steps that record results. -/
def Finishes : Action → Prop
  | .verifyFirst _ _ | .verify _ _ | .finish _ => True
  | _ => False

/-- What the recovery promises about one step. -/
structure Promised (s : Shop) (a : Action) (answer : Answer) (s' : Shop) : Prop where
  noRelease : ∀ id, Decided s id .capture→answer≠.called .releaseOrder id
  noDecline : ∀ id, Decided s id .capture→answer≠.recorded id .declined
  noCapture : ∀ id reason, Decided s id (.cancel reason)→answer≠.called .captureOrder id
  /-- A capture is due, and its pass holds the pay lock. -/
  due : ∀ id, answer=.called .captureOrder id→∃ row∈s.attempts, row.id=id ∧
    Payable s row.amount∧∃ p∈s.passes, p.attempt.id=id∧s.payLock=some p.id
  /-- A settled attempt is not changed by a recorded result. -/
  settled : Finishes a→∀ row∈s.attempts, row.status=.settled → row∈s'.attempts

/-- What one step keeps and promises. -/
structure Outcome (s : Shop) (a : Action) (answer : Answer) (s' : Shop) : Prop where
  sound : Sound s'
  rows : KeepsRows s s'
  promised : Promised s a answer s'

/-- A step without calls and results promises nothing else. -/
theorem Outcome.of_quiet (hq : Quiet answer)
    (hset : Finishes a→∀ row∈s.attempts, row.status=.settled → row∈s'.attempts)
    (hsd : Sound s') (hrs : KeepsRows s s') : Outcome s a answer s' := by
  have hcal : ∀ call id, answer≠.called call id := by
    rintro call id rfl
    rcases hq with h|h|h|h <;> cases h
  have hrec : ∀ id state, answer≠.recorded id state := by
    rintro id state rfl
    rcases hq with h|h|h|h <;> cases h
  exact ⟨hsd,hrs,fun id _ => hcal _ id,fun id _ => hrec id _,fun id _ _ => hcal _ id,
    fun id h => absurd h (hcal _ id),hset⟩

/-- A step that does nothing. -/
theorem Outcome.same (hsd : Sound s)
    (hq : Quiet answer) : Outcome s a answer s :=
  Outcome.of_quiet hq (fun _ _ hrow _ => hrow) hsd (.same rfl)

/-- A pass ends without calls and results. -/
theorem Outcome.dropped (hsd : Sound s) (id : ℕ) :
    Outcome s a .ended (dropPass s id) :=
  Outcome.of_quiet (.inr (.inr (.inr rfl))) (fun _ _ hrow _ => hrow)
    (hsd.drop (.same rfl) rfl (hsd.others id)) (.same rfl)

theorem Outcome.moved (hsd : Sound s) (id : ℕ)
    (hout : ¬ inLock phase) : Outcome s a .ran (setPhase s id phase) :=
  Outcome.of_quiet (.inl rfl) (fun _ _ hrow _ => hrow)
    (hsd.move (.same rfl) rfl (hsd.others id)
      fun _ _ _ => ⟨fun hin => absurd hin hout,fits_of_not_inLock hout⟩) (.same rfl)

section
variable (hsd : Sound s)
include hsd

theorem startPass_outcome (id : ℕ) (attemptId : String) (now : ℤ) (hnew : ∀ p∈s.passes, p.id≠id) :
    Outcome s (.startPass id attemptId now) (startPass s id attemptId now).1
      (startPass s id attemptId now).2 := by
  unfold startPass
  split
  · exact .same hsd (.inr (.inl rfl))
  · next a hfd =>
    split
    · exact .same hsd (.inr (.inl rfl))
    · next ref _ =>
      split
      · exact .same hsd (.inr (.inl rfl))
      obtain ⟨ha,-⟩ := findAttempt_eq_some hfd
      have hmem : ∀ p∈s.passes++[⟨id,a,ref,now,.started⟩],
          p∈s.passes∨p=⟨id,a,ref,now,.started⟩ := by
        simp
      refine .of_quiet (.inl rfl) (fun h => absurd h not_false) ⟨hsd.attemptIds,
        nodup_map_append _ hsd.passIds hnew,?_,?_,?_⟩ (.same rfl)
      · intro p hp
        rcases hmem p hp with hold|rfl
        · exact hsd.copies p hold
        · exact ⟨a,ha,rfl,rfl⟩
      · intro p hp hin
        rcases hmem p hp with hold|rfl
        · exact hsd.holder p hold hin
        · exact absurd hin not_false
      · intro p hp
        rcases hmem p hp with hold|rfl
        · exact .congr rfl rfl (hsd.fits p hold)
        · trivial

theorem readContext_outcome (a : Action) (p : Pass) :
    Outcome s a (readContext s p).1 (readContext s p).2 := by
  unfold readContext
  split
  · exact .dropped hsd p.id
  · exact .moved hsd p.id not_false

theorem decideUnlocked_outcome (a : Action) (p : Pass)
    (payable required : Bool) (answer : Option SezzleOrder) (clock : ℤ) (opts : RecoveryOptions) :
    Outcome s a (decideUnlocked s p payable required answer clock opts).1
      (decideUnlocked s p payable required answer clock opts).2 := by
  unfold decideUnlocked
  split
  · exact .dropped hsd p.id
  split
  · exact .dropped hsd p.id
  split
  · exact .dropped hsd p.id
  · split
    · exact .dropped hsd p.id
    · exact .moved hsd p.id not_false

theorem takeLock_outcome (a : Action) (hp : p∈s.passes) {decision : SezzleDecision}
    (hfs : MayEnter s p (.decided decision)) :
    Outcome s a (takeLock s p decision).1 (takeLock s p decision).2 := by
  change (takeLock s p decision).1=.ran→_ at hfs
  unfold takeLock at hfs ⊢
  split
  · exact .same hsd (.inr (.inr (.inl rfl)))
  · next hlk =>
    split
    · exact .dropped hsd p.id
    next hqua =>
    rw [if_neg hlk,if_neg hqua] at hfs
    have hfr : s.payLock=none := by simpa using hlk
    have hnx : Sound (setPhase {s with payLock := some p.id} p.id (.locked decision)) := by
      refine @Sound.move s {s with payLock := some p.id} (.locked decision) hsd p.id
        (.same rfl) rfl ?_ ?_
      · intro q hq _
        have hout := hsd.free hfr hq
        exact ⟨fun hin => absurd hin hout,fits_of_not_inLock hout⟩
      · intro q hq hid
        cases eq_of_key_eq Pass.id hsd.passIds hq hp hid
        exact ⟨fun _ => rfl,hfs rfl⟩
    exact .of_quiet (.inl rfl) (fun _ _ hrow _ => hrow) hnx (.same rfl)

end

theorem Outcome.locked (hsd : Sound s)
    (hp : p∈s.passes) (hin : inLock p.phase) (hnot : ¬ Finishes a) (hrs : KeepsRows s s')
    (hpas : s'.passes=s.passes) (hlk : s'.payLock=s.payLock)
    (hfs : Fits s' p.attempt phase) : Outcome s a .ran (setPhase s' p.id phase) := by
  have hhd := hsd.holder p hp hin
  refine .of_quiet (.inl rfl) (fun h => absurd h hnot) ?_ ⟨hrs.attemptIds,hrs.kept⟩
  refine hsd.move hrs hpas (hsd.others_of_holder hhd s') fun q hq hid => ?_
  cases eq_of_key_eq Pass.id hsd.passIds hq hp hid
  exact ⟨fun _ => hlk.trans hhd,hfs⟩

/-- What the decision transaction leaves behind. -/
structure Verdict (s : Shop) (a : Attempt) (verdict : CaptureVerdict) (s' : Shop) : Prop where
  rows : KeepsRows s s'
  same : s'.passes=s.passes∧s'.payLock=s.payLock∧s'.order=s.order
  capture : verdict=.capture → Decided s' a.id .capture∧Payable s' a.amount
  cancel : ∀ reason, verdict=.cancel reason→¬ Decided s' a.id .capture

theorem persistDecision_rows (hsd : Sound s) {row : Attempt}
    (hrow : row∈s.attempts) (hno : row.captureDecision=none) (decision : CaptureDecision) :
    KeepsRows s (persistDecision s row.id decision) ∧
      ∀ d, Decided (persistDecision s row.id decision) row.id d ↔ d=decision := by
  constructor
  · refine .update row.id rfl (fun _ => rfl) (fun _ => rfl) ?_
    intro a ha hid d hd
    cases eq_of_key_eq Attempt.id hsd.attemptIds ha hrow hid
    rw [hno] at hd
    cases hd
  · intro d
    constructor
    · rintro ⟨a,ha,hid,hd⟩
      rcases mem_updateWhere.mp ha with ⟨old,-,-,rfl⟩|⟨-,hms⟩
      · exact (Option.some.inj hd).symm
      · simp [hid] at hms
    · rintro rfl
      exact ⟨{row with captureDecision := some d},
        mem_updateWhere.mpr (.inl ⟨row,hrow,by simp,rfl⟩),rfl,rfl⟩

theorem Verdict.of_same {a : Attempt} {verdict : CaptureVerdict}
    (hcap : verdict=.capture → Decided s a.id .capture∧Payable s a.amount)
    (hcan : ∀ reason, verdict=.cancel reason→¬ Decided s a.id .capture) : Verdict s a verdict s :=
  ⟨.same rfl,⟨rfl,rfl,rfl⟩,hcap,hcan⟩

/-- The transaction keeps a persisted decision, and it decides to capture only
an order that is payable. -/
theorem decideSezzleCapture_verdict (hsd : Sound s) (a : Attempt)
    (policy : PolicyAnswer) (hfs : Decided s a.id .capture → Payable s a.amount) :
    Verdict s a (decideSezzleCapture s a policy).1 (decideSezzleCapture s a policy).2 := by
  have hlat : Verdict s a .unavailable s :=
    Verdict.of_same nofun nofun
  unfold decideSezzleCapture
  cases hfd : findAttempt s a.id with
  | none => exact hlat
  | some row =>
    obtain ⟨hrow,hid⟩ := findAttempt_eq_some hfd
    dsimp only
    split
    · exact hlat
    · cases hpri : row.captureDecision with
      | some prior =>
        have hdec : Decided s a.id prior := ⟨row,hrow,hid,hpri⟩
        cases prior with
        | capture => exact .of_same (fun _ => ⟨hdec,hfs hdec⟩) nofun
        | cancel =>
          refine .of_same nofun fun _ _ hcap => ?_
          cases hsd.decided_unique hdec hcap
      | none =>
        have hnot : ¬ Decided s a.id .capture := by
          rintro ⟨other,hot,heq,hd⟩
          cases eq_of_key_eq Attempt.id hsd.attemptIds hot hrow (heq.trans hid.symm)
          rw [hpri] at hd
          cases hd
        cases hord : s.order with
        | none => exact hlat
        | some =>
          dsimp only
          split
          · exact .of_same nofun fun _ _ => hnot
          · next hpay =>
            have hdue : Payable s a.amount := by simpa [Payable,hord] using hpay
            cases policy with
            | capture =>
              obtain ⟨hrs,hper⟩ := persistDecision_rows hsd hrow hpri .capture
              rw [hid] at hrs hper
              exact ⟨hrs,⟨rfl,rfl,rfl⟩,fun _ => ⟨(hper _).mpr rfl,hdue⟩,fun _ h => by cases h⟩
            | cancel reason =>
              obtain ⟨hrs,hper⟩ :=
                persistDecision_rows hsd hrow hpri (.cancel ("policy:" ++ reason))
              rw [hid] at hrs hper
              refine ⟨hrs,⟨rfl,rfl,rfl⟩,nofun,fun _ _ hcap => ?_⟩
              cases (hper _).mp hcap
            | unavailable => exact hlat

section
variable (hsd : Sound s) (a : Action) (hnot : ¬ Finishes a) (hp : p∈s.passes)
include hsd hnot hp

theorem decideLocked_outcome (policy : PolicyAnswer) {decision : SezzleDecision}
    (hph : p.phase=.locked decision) :
    Outcome s a (decideLocked s p policy decision).1 (decideLocked s p policy decision).2 := by
  have hin : inLock p.phase := by
    rw [hph]
    trivial
  have hfs := hsd.fits p hp
  rw [hph] at hfs
  cases decision with
  | capture =>
    change Outcome s a (followVerdict p.id (decideSezzleCapture s p.attempt policy)).1
      (followVerdict p.id (decideSezzleCapture s p.attempt policy)).2
    have hver := decideSezzleCapture_verdict hsd p.attempt policy fun h => (hfs h).2
    generalize decideSezzleCapture s p.attempt policy=result at hver
    obtain ⟨verdict,s'⟩ := result
    obtain ⟨hrs,⟨hpas,hlk,-⟩,hcap,hcan⟩ := hver
    cases verdict with
    | capture => exact .locked hsd hp hin hnot hrs hpas hlk (hcap rfl)
    | cancel reason => exact .locked hsd hp hin hnot hrs hpas hlk (hcan reason rfl)
    | unavailable =>
      refine .of_quiet (.inr (.inr (.inr rfl))) (fun h => absurd h hnot) ?_
        ⟨hrs.attemptIds,hrs.kept⟩
      exact hsd.drop hrs hpas (hsd.others_of_holder (hsd.holder p hp hin) s')
  | release | expire =>
    refine .locked hsd hp hin hnot (.same rfl) rfl rfl fun h => ?_
    cases (hfs h).1
  | wait => exact .dropped hsd p.id

/-- Every call of the provider is due or meets no capture decision. -/
theorem callProvider_outcome (answered : Bool) :
    Outcome s a (callProvider s p answered).1 (callProvider s p answered).2 := by
  have hfs := hsd.fits p hp
  have hhol := hsd.holder p hp
  have hnx : ∀ phase, inLock p.phase → Fits s p.attempt phase →
      Sound (if answered=true then setPhase s p.id phase else dropPass s p.id) := by
    intro phase hin hph
    split
    · exact (Outcome.locked hsd hp hin hnot (KeepsRows.same rfl) rfl rfl hph).sound
    · exact (Outcome.dropped (a := a) hsd p.id).sound
  have hrs : ∀ phase, KeepsRows s
      (if answered=true then setPhase s p.id phase else dropPass s p.id) := by
    intro phase
    split <;> exact .same rfl
  unfold callProvider
  cases hph : p.phase with
  | capturing =>
    rw [hph] at hfs hhol hnx
    obtain ⟨hdec,hdue⟩ := hfs
    refine ⟨hnx .captured trivial trivial,hrs .captured,?_,?_,?_,?_,fun h => absurd h hnot⟩
    · intro id _ h
      cases h
    · intro id _ h
      cases h
    · intro id reason hcan h
      cases h
      cases hsd.decided_unique hdec hcan
    · intro id h
      cases h
      obtain ⟨row,hrow,hid,hamo⟩ := hsd.copies p hp
      exact ⟨row,hrow,hid,hamo ▸ hdue,p,hp,rfl,hhol trivial⟩
  | releasing reason =>
    rw [hph] at hfs hhol hnx
    refine ⟨hnx (.closing reason true) trivial hfs,hrs (.closing reason true),?_,?_,?_,?_,
      fun h => absurd h hnot⟩
    · intro id hdec h
      cases h
      exact hfs hdec
    · intro id _ h
      cases h
    · intro id _ _ h
      cases h
    · intro id h
      cases h
  | started | verified | informed | decided | locked | captured | closing =>
    exact .same hsd (.inr (.inl rfl))

end

/-- What recording a result does. -/
structure Finished (s : Shop) (id : String) (result : PaymentResult) (answer : Answer) (s' : Shop) :
    Prop where
  rows : KeepsRows s s'
  same : s'.passes=s.passes∧s'.payLock=s.payLock
  settled : ∀ row∈s.attempts, row.status=.settled → row∈s'.attempts
  answer : answer=.ran∨(answer=.recorded id result.state ∧
    ∃ row∈s.attempts, row.id=id∧row.status≠.settled)

theorem finishAttempt_finished {result : PaymentResult}
    (hsd : Sound s) (h : finishAttempt w s id result=some (answer,s')) :
    Finished s id result answer s' := by
  unfold finishAttempt at h
  cases hfd : findAttempt s id with
  | none =>
    rw [hfd] at h
    cases h
  | some a =>
    obtain ⟨ha,hid⟩ := findAttempt_eq_some hfd
    rw [hfd] at h
    dsimp only at h
    split at h
    · cases hord : s.order with
      | none =>
        rw [hord] at h
        cases h
        exact ⟨.same rfl,⟨rfl,rfl⟩,fun _ hrow _ => hrow,.inl rfl⟩
      | some =>
        rw [hord] at h
        obtain ⟨o',-,hres⟩ := Option.map_eq_some_iff.mp h
        cases hres
        exact ⟨.same rfl,⟨rfl,rfl⟩,fun _ hrow _ => hrow,.inl rfl⟩
    · next hop =>
      cases hord : s.order with
      | none =>
        rw [hord] at h
        cases h
      | some =>
        rw [hord] at h
        obtain ⟨o',-,hres⟩ := Option.map_eq_some_iff.mp h
        cases hres
        refine ⟨.update id rfl (fun _ => rfl) (fun _ => rfl) fun _ _ _ _ hd => hd,
          ⟨rfl,rfl⟩,?_,.inr ⟨rfl,a,ha,hid,hop⟩⟩
        intro row hrow hset
        refine mem_updateWhere.mpr (.inr ⟨hrow,decide_eq_false fun heq => hop ?_⟩)
        cases eq_of_key_eq Attempt.id hsd.attemptIds hrow ha (heq.trans hid.symm)
        exact hset

section
variable {result : PaymentResult}
variable (h : Finished s id result answer s')
include h

theorem Finished.promised (a : Action)
    (hdecl : result.state=.declined→(∃ row∈s.attempts, row.id=id∧row.status≠.settled) →
      ¬ Decided s id .capture) : Promised s a answer s' := by
  have hcal : ∀ call other, answer≠.called call other := by
    rintro call other rfl
    rcases h.answer with hran|⟨hrec,-⟩
    · cases hran
    · cases hrec
  refine ⟨fun id _ => hcal _ id,?_,fun id _ _ => hcal _ id,fun id hdn => absurd hdn (hcal _ id),
    fun _ => h.settled⟩
  rintro other hdec rfl
  rcases h.answer with hran|⟨hrec,hop⟩
  · cases hran
  · injection hrec with heq hst
    subst heq
    exact hdecl hst.symm hop hdec

/-- A result recorded while nobody holds the lock. -/
theorem Finished.outcome (hsd : Sound s) (hlk : s.payLock=none) (a : Action)
    (hdec : result.state=.declined→(∃ row∈s.attempts, row.id=id∧row.status≠.settled) →
      ¬ Decided s id .capture) : Outcome s a answer s' :=
  ⟨hsd.rows h.rows h.same.1 hlk,h.rows,h.promised a hdec⟩

end

theorem not_decided_of_declined {a : Attempt} (hsd : Sound s)
    (ha : a∈s.attempts) (hid : a.id=id) {r : Reading} (hste : NotDeclined s id r)
    (hdec : (createPayment a r).state=.declined)
    (hop : ∃ row∈s.attempts, row.id=id∧row.status≠.settled) : ¬ Decided s id .capture := by
  rintro ⟨other,hot,heq,hd⟩
  cases eq_of_key_eq Attempt.id hsd.attemptIds hot ha (heq.trans hid.symm)
  obtain ⟨row,hrow,hrowId,hsta⟩ := hop
  cases eq_of_key_eq Attempt.id hsd.attemptIds hrow ha (hrowId.trans hid.symm)
  exact hste a ha hid hd hsta hdec

/-- A verification does nothing, or it records its result. -/
def Verified (s : Shop) (id : String) (r : Reading) (answer : Answer) (s' : Shop) : Prop :=
  (s'=s∧Quiet answer)∨∃ a∈s.attempts, a.id=id∧Finished s id (createPayment a r) answer s'

theorem verified_finish (hsd : Sound s) (r : Reading)
    {a : Attempt} (ha : a∈s.attempts) (hid : a.id=id) :
    Verified s id r ((finishAttempt w s id (createPayment a r)).getD (.ended,s)).1
      ((finishAttempt w s id (createPayment a r)).getD (.ended,s)).2 := by
  cases hres : finishAttempt w s id (createPayment a r) with
  | none => exact .inl ⟨rfl,.inr (.inr (.inr rfl))⟩
  | some result =>
    exact .inr ⟨a,ha,hid,finishAttempt_finished hsd hres⟩

/-- A verification while nobody holds the lock. -/
theorem verifySezzleAttempt_verified (hsd : Sound s) (id : String)
    (r : Reading) (hlk : s.payLock=none) :
    Verified s id r (verifySezzleAttempt w s id r).1 (verifySezzleAttempt w s id r).2 := by
  unfold verifySezzleAttempt
  cases hfd : findAttempt s id with
  | none => exact .inl ⟨rfl,.inr (.inl rfl)⟩
  | some =>
    obtain ⟨ha,hid⟩ := findAttempt_eq_some hfd
    dsimp only
    split
    · exact verified_finish hsd r ha hid
    split
    · exact .inl ⟨rfl,.inr (.inr (.inr rfl))⟩
    · rw [if_neg (by simp [hlk])]
      exact verified_finish hsd r ha hid

theorem Verified.outcome {r : Reading}
    (h : Verified s id r answer s') (hsd : Sound s) (a : Action) (hlk : s.payLock=none)
    (hste : NotDeclined s id r) : Outcome s a answer s' := by
  rcases h with ⟨rfl,hq⟩|⟨row,hrow,hid,hfin⟩
  · exact .same hsd hq
  · exact hfin.outcome hsd hlk a (not_decided_of_declined hsd hrow hid hste)

/-- Moving or ending a pass after a verification changes no rows. -/
theorem Outcome.then {s'' : Shop} (h : Outcome s a answer s')
    (hsd : Sound s'') (hatt : s''.attempts=s'.attempts) : Outcome s a answer s'' :=
  ⟨hsd,h.rows.trans (.same hatt),
    ⟨h.promised.noRelease,h.promised.noDecline,h.promised.noCapture,h.promised.due,
      fun hfin row hrow hset => hatt ▸ h.promised.settled hfin row hrow hset⟩⟩

section
variable (hsd : Sound s)
include hsd

theorem verifyFirst_outcome (a : Action) (p : Pass)
    (r : Reading) (hlk : s.payLock=none) (hste : NotDeclined s p.attempt.id r) :
    Outcome s a (verifyFirst w s p r).1 (verifyFirst w s p r).2 := by
  have hver := verifySezzleAttempt_verified (w := w) hsd p.attempt.id r hlk
  unfold verifyFirst
  generalize verifySezzleAttempt w s p.attempt.id r=out at hver
  obtain ⟨answer,s'⟩ := out
  have houtc := hver.outcome hsd a hlk hste
  have hend : Outcome s a (afterVerification s' p answer).1 (afterVerification s' p answer).2 := by
    unfold afterVerification
    split
    · exact houtc.then (Outcome.dropped (a := a) houtc.sound p.id).sound rfl
    · have hout : ¬ inLock .verified := not_false
      exact houtc.then (Outcome.moved (a := a) houtc.sound p.id hout).sound rfl
  cases answer with
  | waits => exact Outcome.same hsd (.inr (.inr (.inl rfl)))
  | ended | idle => exact .dropped hsd p.id
  | ran | called | recorded => exact hend

/-- A pass records its outcome in the lock and ends. -/
theorem finishPass_outcome (a : Action)
    (hp : p∈s.passes) : Outcome s a (finishPass w s p).1 (finishPass w s p).2 := by
  have hend : ∀ result : PaymentResult, inLock p.phase →
      (result.state=.declined→¬ Decided s p.attempt.id .capture) →
      Outcome s a (finishPass.endPass p.id
        ((finishAttempt w s p.attempt.id result).getD (.ended,s))).1 (finishPass.endPass p.id
        ((finishAttempt w s p.attempt.id result).getD (.ended,s))).2 := by
    intro result hin hdec
    cases hres : finishAttempt w s p.attempt.id result with
    | none => exact .dropped hsd p.id
    | some out =>
      obtain ⟨answer,s'⟩ := out
      have hfin := finishAttempt_finished hsd hres
      have hdro := @Sound.drop s s' hsd p.id hfin.rows hfin.same.1
        (hsd.others_of_holder (hsd.holder p hp hin) s')
      have hpro := hfin.promised a fun hst _ => hdec hst
      exact ⟨hdro,hfin.rows.trans (.same rfl),hpro.noRelease,
        hpro.noDecline,hpro.noCapture,hpro.due,hpro.settled⟩
  have hfs := hsd.fits p hp
  unfold finishPass
  cases hph : p.phase with
  | captured =>
    rw [hph] at hend
    exact hend _ trivial fun h => by cases h
  | closing =>
    rw [hph] at hend hfs
    exact hend _ trivial fun _ => hfs
  | started | verified | informed | decided | locked | capturing | releasing =>
    exact .same hsd (.inr (.inl rfl))

theorem startSession_outcome (id accountId mode : String) (amount : ℤ)
    (currency : String) (createdAt : ℤ) (ending : SessionEnd) (hnew : ∀ a∈s.attempts, a.id≠id) :
    Outcome s (.startSession id accountId mode amount currency createdAt ending)
      (startSession s id accountId mode amount currency createdAt ending).1
      (startSession s id accountId mode amount currency createdAt ending).2 := by
  unfold startSession
  split
  · exact .same hsd (.inr (.inr (.inl rfl)))
  · next hlk =>
    have hrow : (sessionRow ⟨id,none,none,accountId,mode,amount,currency,.processing,none,none,
        none,createdAt⟩ ending).id=id := by
      cases ending <;> rfl
    have hrs : KeepsRows s { s with attempts := s.attempts++[sessionRow ⟨id,none,none,accountId,
        mode,amount,currency,.processing,none,none,none,createdAt⟩ ending]} := by
      refine ⟨fun hids => nodup_map_append _ hids fun a ha => ?_,
        fun a ha => ⟨a,mem_append_left _ ha,rfl,rfl,fun _ hd => hd⟩⟩
      rw [hrow]
      exact hnew a ha
    refine .of_quiet (.inl rfl) (fun h => absurd h not_false) ?_ hrs
    exact hsd.rows hrs rfl (by simpa using hlk)

theorem bindReference_outcome (id ref : String) :
    Outcome s (.bindReference id ref) (bindReference s id ref).1 (bindReference s id ref).2 := by
  unfold bindReference
  split
  · exact .same hsd (.inr (.inl rfl))
  split
  · exact .same hsd (.inr (.inr (.inl rfl)))
  · next hlk =>
    split
    · exact .same hsd (.inr (.inr (.inr rfl)))
    have hrs : KeepsRows s (updateAttempt s id fun a => {a with providerRef := some ref}) :=
      KeepsRows.update id rfl (fun _ => rfl) (fun _ => rfl) fun _ _ _ _ hd => hd
    exact .of_quiet (.inl rfl) (fun h => absurd h not_false)
      (hsd.rows hrs rfl (by simpa using hlk)) hrs

theorem changeOrder_outcome (order : Option Order) :
    Outcome s (.changeOrder order) (changeOrder s order).1 (changeOrder s order).2 := by
  unfold changeOrder
  split
  · exact .same hsd (.inr (.inr (.inl rfl)))
  · next hlk =>
    exact .of_quiet (.inl rfl) (fun h => absurd h not_false)
      (hsd.rows (.same rfl) rfl (by simpa using hlk)) (.same rfl)

/-- Every steady step keeps the facts and the promises. -/
theorem step_outcome
    (hall : Admissible s a) (hste : Steady s a) : Outcome s a (step w s a).1 (step w s a).2 := by
  have honP : ∀ id (f : Pass → Answer×Shop),
      (∀ p∈s.passes, p.id=id → Outcome s a (f p).1 (f p).2) →
      Outcome s a (onPass s id f).1 (onPass s id f).2 := by
    intro id f hf
    unfold onPass
    cases hfd : findPass s id with
    | none => exact .same hsd (.inr (.inl rfl))
    | some p =>
      obtain ⟨hp,hid⟩ := findPass_eq_some hfd
      exact hf p hp hid
  cases a with
  | startPass id attemptId now => exact startPass_outcome hsd id attemptId now hall
  | verifyFirst id r =>
    refine honP id _ fun p hp hid => ?_
    unfold atStart
    split
    · exact verifyFirst_outcome hsd _ p r hall (hste p hp hid)
    · exact .same hsd (.inr (.inl rfl))
  | readContext id =>
    refine honP id _ fun p _ _ => ?_
    unfold atVerified
    split
    · exact readContext_outcome hsd _ p
    · exact .same hsd (.inr (.inl rfl))
  | getOrder id answer clock opts =>
    refine honP id _ fun p _ _ => ?_
    unfold atInformed
    split
    · exact decideUnlocked_outcome hsd _ p _ _ answer clock opts
    · exact .same hsd (.inr (.inl rfl))
  | lock id =>
    refine honP id _ fun p hp hid => ?_
    have hent := hste p hp hid
    unfold atDecided
    split
    · next decision hph =>
      rw [hph] at hent
      exact takeLock_outcome hsd _ hp hent
    · exact .same hsd (.inr (.inl rfl))
  | decide id policy =>
    refine honP id _ fun p hp _ => ?_
    unfold atLocked
    split
    · next decision hph => exact decideLocked_outcome hsd (.decide id policy) not_false hp policy hph
    · exact .same hsd (.inr (.inl rfl))
  | callProvider id answered =>
    exact honP id _ fun p hp _ => callProvider_outcome hsd (.callProvider id answered) not_false hp answered
  | finish id => exact honP id _ fun p hp _ => finishPass_outcome hsd _ hp
  | crash id => exact .dropped hsd id
  | verify id r => exact (verifySezzleAttempt_verified hsd id r hall).outcome hsd _ hall hste
  | startSession id accountId mode amount currency createdAt ending =>
    exact startSession_outcome hsd id accountId mode amount currency createdAt ending hall
  | bindReference id ref => exact bindReference_outcome hsd id ref
  | changeOrder order => exact changeOrder_outcome hsd order

end

/-- An order before any recovery: attempts are distinct, no pass is open and
nobody holds the pay lock. -/
structure Opening (s : Shop) : Prop where
  attemptIds : (s.attempts.map Attempt.id).Nodup
  idle : s.passes=[]
  unlocked : s.payLock=none

theorem Opening.sound (hsta : Opening s) : Sound s := by
  have hno : ∀ p, p∉s.passes := by
    intro p hp
    rw [hsta.idle] at hp
    cases hp
  refine ⟨hsta.attemptIds,?_,fun p hp => absurd hp (hno p),fun p hp => absurd hp (hno p),
    fun p hp => absurd hp (hno p)⟩
  rw [hsta.idle]
  exact nodup_nil

/-- Runs whose steps respect the pay lock. -/
abbrev Allowed (_ : List (Event Shop Action Answer)) (s : Shop) (a : Action) : Prop :=
  Admissible s a

/-- Recovery over a run whose steps are steady: every step keeps its promises,
and a decision that was persisted once is there at every later step. -/
theorem recovery_decisions_final (w : World) {s₀ s : Shop} {h : List (Event Shop Action Answer)}
    (hstart : Opening s₀) (hrun : Run (step w) Allowed s₀ h s)
    (hsteady : ∀ e∈h, Steady e.before e.action) :
    (∀ e∈h, Promised e.before e.action e.result e.after) ∧
      ∀ e∈h, ∀ id decision, Decided e.after id decision → Decided s id decision := by
  have hall : (∀ e∈h, Steady e.before e.action) → Sound s ∧
      (∀ e∈h, Promised e.before e.action e.result e.after) ∧
      ∀ e∈h, ∀ id decision, Decided e.after id decision → Decided s id decision := by
    refine Run.invariant (P := fun h s => (∀ e∈h, Steady e.before e.action) → Sound s ∧
      (∀ e∈h, Promised e.before e.action e.result e.after) ∧
      ∀ e∈h, ∀ id decision, Decided e.after id decision → Decided s id decision) hrun ?_ ?_
    · exact fun _ => ⟨hstart.sound,fun e he => absurd he not_mem_nil,
        fun e he => absurd he not_mem_nil⟩
    intro h s a hpa hallow hsteady
    obtain ⟨hsd,hpro,hkp⟩ := hpa fun e he => hsteady e (mem_append_left _ he)
    have hnow : Steady s a :=
      hsteady (perform (step w) s a) (mem_append_right _ mem_cons_self)
    have hout := step_outcome (w := w) hsd hallow hnow
    refine ⟨hout.sound,fun e he => ?_,fun e he id decision hd => ?_⟩
    · rcases mem_concat_iff.mp he with hold|rfl
      · exact hpro e hold
      · exact hout.promised
    · rcases mem_concat_iff.mp he with hold|rfl
      · exact hout.rows.decided (hkp e hold id decision hd)
      · exact hd
  exact (hall hsteady).2

instance (s : Shop) (id : String) (decision : CaptureDecision) :
    Decidable (Decided s id decision) := by
  unfold Decided
  infer_instance

instance (s : Shop) (amount : ℤ) : Decidable (Payable s amount) := by
  unfold Payable
  infer_instance

instance (s : Shop) (p : Pass) (phase : Phase) : Decidable (MayEnter s p phase) := by
  cases phase <;> unfold MayEnter <;> infer_instance

instance (s : Shop) (id : String) (r : Reading) : Decidable (NotDeclined s id r) := by
  unfold NotDeclined
  infer_instance

instance (s : Shop) (a : Action) : Decidable (Admissible s a) := by
  cases a <;> unfold Admissible <;> infer_instance

instance (s : Shop) (a : Action) : Decidable (Steady s a) := by
  cases a <;> unfold Steady <;> infer_instance

/-- A settled result becomes a payment that pays the order. -/
def paymentWorld : World where
  applyPaymentResult := fun o a result =>
    if result.state=.settled then some {o with
      state := .paid
      payments := o.payments++[⟨"p1",o.id,a.amount, "sezzle",result.providerRef,.settled,
        some a.accountId,some a.mode,some a.currency,false,none,0⟩]}
    else some o
  retryPreparedEditSettlement := fun o _ => some o

/-- An order over ten units that waits for its payment. -/
def openOrder : Order := ⟨"o1",.pendingPayment,1000,false,[],[],[]⟩

/-- The order after another payment. -/
def paidOrder : Order := {openOrder with
    state := .paid
    payments := [⟨"p0", "o1",1000, "manual",none,.settled,none,none,some "USD",false,none,0⟩]}

/-- An order with one session that the shopper finished. -/
def approvedShop : Shop where
  order := some openOrder
  attempts := [⟨"a1",none,some "s1", "acct", "live",1000, "USD",.pending,none,none,none,0⟩]
  passes := []
  payLock := none

theorem approvedShop_opening : Opening approvedShop := ⟨by decide,rfl,rfl⟩

/-- The approved session at the provider. -/
def approvedSession : SezzleOrder :=
  ⟨"s1", "a1",some ⟨1000, "USD"⟩,none,some ⟨true,none,[],[],[]⟩,false⟩

/-- A pass reads the approved session and decides. -/
def readActions (id : ℕ) : List Action :=
  [.startPass id "a1" 10,.verifyFirst id ⟨"s1",true,some approvedSession,10⟩,.readContext id,
    .getOrder id (some approvedSession) 10 ⟨true,60⟩]

/-- A pass captures the session. -/
def captureActions : List Action :=
  readActions 1++[.lock 1,.decide 1 .capture,.callProvider 1 true,.finish 1]

/-- The captured attempt is settled, and its decision is there to the end. -/
theorem recovery_decisions_final_captured :
    findAttempt (play (step paymentWorld) [] approvedShop captureActions).2 "a1" ≠ none ∧
      ∀ e∈(play (step paymentWorld) [] approvedShop captureActions).1,
        Promised e.before e.action e.result e.after :=
  ⟨by decide,(recovery_decisions_final paymentWorld approvedShop_opening
    (.play .nil captureActions (by decide)) (by decide)).1⟩

/-- The capture of a pass fails, another payment pays the order, and a second
pass releases the session. -/
def releaseActions : List Action :=
  readActions 1++[.lock 1,.decide 1 .capture,.callProvider 1 false,.changeOrder (some paidOrder)] ++
    readActions 2++[.lock 2,.decide 2 .capture,.callProvider 2 true,.finish 2]

/-- Two passes decide to capture, the capture of the first one fails, another
payment pays the order, and the second pass captures. -/
def recaptureActions : List Action :=
  readActions 1++readActions 2++[.lock 1,.decide 1 .capture,.callProvider 1 false,
    .changeOrder (some paidOrder),.lock 2,.decide 2 .capture,.callProvider 2 true]

/-- A session whose capture was decided is released, and a session is captured
while nothing is due. -/
theorem recovery_releases_decided_capture : Opening approvedShop ∧
    (∃ h s, Run (step paymentWorld) Allowed approvedShop h s ∧
      ∃ e∈h, Decided e.before "a1" .capture∧e.result=.called .releaseOrder "a1") ∧
    ∃ h s, Run (step paymentWorld) Allowed approvedShop h s ∧
      ∃ e∈h, e.result=.called .captureOrder "a1" ∧ ¬ Payable e.before 1000 :=
  ⟨approvedShop_opening,
    ⟨_,_,.play .nil releaseActions (by decide),
      (play (step paymentWorld) [] approvedShop releaseActions).1.get
      ⟨14,by decide⟩,get_mem _ _,by decide,by decide⟩,
    ⟨_,_,.play .nil recaptureActions (by decide),
      (play (step paymentWorld) [] approvedShop recaptureActions).1.get
      ⟨14,by decide⟩,get_mem _ _,by decide,by decide⟩⟩

end SellRight.SezzleSafety
