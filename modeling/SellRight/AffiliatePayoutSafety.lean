import SellRight.AffiliatePayouts

/-!
# Payouts within what was earned

A payout is checked against amounts read earlier in its transaction. As long as
no other payout of the promotion is committed in between, payouts never exceed
the commission and their periods follow each other. Nothing keeps two requests
from reading the same amounts.
-/

namespace SellRight.AffiliatePayoutSafety

open AffiliatePayouts OrderLifecycle RunHistory List

variable {s : Store} {orders : List Order} {payouts : List Payout} {promotionId : String}

theorem settledTotal_append (payouts : List Payout) (row : Payout) (promotionId : String) :
    settledTotal (payouts++[row]) promotionId=settledTotal payouts promotionId +
        if row.promotionId=promotionId then row.amountCents else 0 := by
  unfold settledTotal
  by_cases heq : row.promotionId=promotionId
  · simp [heq]
  · simp [heq]

theorem latestEnd_le {p : Payout} (hp : p∈payouts) (heq : p.promotionId=promotionId) :
    ∃ last, latestEnd promotionId payouts=some last∧p.periodEndAt≤last := by
  induction payouts with
  | nil => cases hp
  | cons q rest ih =>
    unfold latestEnd
    rcases mem_cons.mp hp with rfl|htl
    · rw [if_pos heq]
      cases hrt : latestEnd promotionId rest with
      | none => exact ⟨_,rfl,le_refl _⟩
      | some => exact ⟨_,rfl,le_max_left _ _⟩
    · obtain ⟨last,hlt,hle⟩ := ih htl
      split
      · rw [hlt]
        exact ⟨_,rfl,le_trans hle (le_max_right _ _)⟩
      · exact ⟨last,hlt,hle⟩

variable {row : Payout} {settled : ℤ}

theorem latestEnd_append_of_ne (hne : row.promotionId≠promotionId) (payouts : List Payout) :
    latestEnd promotionId (payouts++[row])=latestEnd promotionId payouts := by
  induction payouts with
  | nil => simp [latestEnd,hne]
  | cons _ _ ih => simp only [cons_append,latestEnd,ih]

/-- A payout that was checked: at least a cent, within what was outstanding when
the settled sum was read, and that sum has only grown. -/
structure Within (orders : List Order) (payouts : List Payout) (promotionId : String)
    (settled pay : ℤ) : Prop where
  positive : 1≤pay
  /-- The payout is within the amount outstanding when it was read. -/
  outstanding : settled+pay≤commission (subtotals orders promotionId)
  grown : settled ≤ settledTotal payouts promotionId

/-- The period follows the recorded ones, unless a payout came in between. -/
def FollowsOn (payouts : List Payout) (promotionId : String) (settled : ℤ)
    (periodStartAt : Option ℤ) : Prop :=
  settledTotal payouts promotionId=settled→periodStartAt=latestEnd promotionId payouts

/-- What a request knows at its phase. -/
def Knows (s : Store) : Phase → Prop
  | .opened _ _ => True
  | .measured promotionId settled pay => Within s.orders s.payouts promotionId settled pay
  | .placed promotionId settled pay periodStartAt =>
    Within s.orders s.payouts promotionId settled pay ∧
      FollowsOn s.payouts promotionId settled periodStartAt
  | .inserted settled row =>
    Within s.orders s.payouts row.promotionId settled row.amountCents ∧
      FollowsOn s.payouts row.promotionId settled row.periodStartAt

/-- Every open request knows what its phase says. -/
def Informed (s : Store) : Prop := ∀ request phase, s.requests request=some phase → Knows s phase

theorem Informed.move (h : Informed s) {request : ℕ} {phase : Option Phase}
    (hph : ∀ p, phase=some p → Knows s p) : Informed (s.move request phase) := by
  intro other p hp
  have hkno : Knows s p := by
    by_cases heq : other=request
    · subst heq
      exact hph p (by simpa [Store.move] using hp)
    · exact h other p (by simpa [Store.move,heq] using hp)
  cases p <;> exact hkno

/-- A committed payout only grows the recorded sums. -/
theorem Within.commit {pay : ℤ} (h : Within orders payouts promotionId settled pay)
    (hpos : 1≤row.amountCents) :
    Within orders (payouts++[row]) promotionId settled pay := by
  refine ⟨h.positive,h.outstanding,?_⟩
  have hgro := h.grown
  rw [settledTotal_append]
  split <;> omega

/-- A committed payout of the promotion is noticed, one of another promotion
leaves the period as it is. -/
theorem FollowsOn.commit {pay : ℤ} {periodStartAt : Option ℤ}
    (h : FollowsOn payouts promotionId settled periodStartAt)
    (hwit : Within orders payouts promotionId settled pay)
    (hpos : 1≤row.amountCents) : FollowsOn (payouts++[row]) promotionId settled periodStartAt := by
  intro heq
  rw [settledTotal_append] at heq
  split_ifs at heq with hrow
  · have hgro := hwit.grown
    omega
  · rw [add_zero] at heq
    rw [latestEnd_append_of_ne hrow]
    exact h heq

theorem Informed.commit (h : Informed s) {request : ℕ}
    (hrow : s.requests request=some (.inserted settled row)) :
    Informed {s.move request none with payouts := s.payouts++[row]} := by
  have hpos : 1≤row.amountCents := (h request _ hrow).1.positive
  intro other p hp
  have hold : s.requests other=some p := by
    by_cases heq : other=request
    · subst heq
      simp [Store.move] at hp
    · simpa [Store.move,heq] using hp
  have hkno := h other p hold
  cases p with
  | opened => trivial
  | measured => exact hkno.commit hpos
  | placed | inserted => exact ⟨hkno.1.commit hpos,hkno.2.commit hkno.1 hpos⟩

theorem Informed.measure (h : Informed s) (request : ℕ) (promotionId : String)
    (amountCents : Option ℤ) : Informed (measure s request promotionId amountCents).2 := by
  unfold AffiliatePayouts.measure
  cases hamo : affiliateAmounts s.orders s.payouts promotionId with
  | none => exact h.move fun _ hno => by cases hno
  | some =>
    dsimp only
    split_ifs with hche
    · exact h.move nofun
    refine h.move fun p hp => ?_
    cases hp
    unfold affiliateAmounts at hamo
    dsimp only at hamo
    split at hamo
    · cases hamo
      rw [not_or,not_le,not_lt] at hche
      obtain ⟨hpos,hwit⟩ := hche
      exact ⟨by omega,by dsimp only at hwit ⊢; omega,le_refl _⟩
    · cases hamo

/-- Every statement keeps requests informed and the orders as they are. -/
theorem Informed.next (h : Informed s) (a : Action) :
    Informed (step s a).2∧(step s a).2.orders=s.orders := by
  unfold AffiliatePayouts.step
  cases a with
  | start =>
    dsimp only
    split
    · exact ⟨h,rfl⟩
    split
    · exact ⟨h,rfl⟩
    · refine ⟨h.move fun p hp => ?_,rfl⟩
      cases hp
      trivial
  | readAmounts request =>
    dsimp only
    split
    · next promotionId amountCents _ =>
      refine ⟨h.measure request promotionId amountCents,?_⟩
      unfold AffiliatePayouts.measure
      split
      · rfl
      · dsimp only
        split <;> rfl
    · exact ⟨h,rfl⟩
  | readPrevious request =>
    dsimp only
    split
    · next promotionId settled pay hreq =>
      refine ⟨h.move fun p hp => ?_,rfl⟩
      cases hp
      exact ⟨h request _ hreq,fun _ => rfl⟩
    · exact ⟨h,rfl⟩
  | insert request =>
    dsimp only
    split
    · next promotionId settled pay periodStartAt hreq =>
      refine ⟨h.move fun p hp => ?_,rfl⟩
      cases hp
      have hkno := h request _ hreq
      exact hkno
    · exact ⟨h,rfl⟩
  | commit =>
    dsimp only
    split
    · next settled row hreq => exact ⟨h.commit hreq,rfl⟩
    · exact ⟨h,rfl⟩
  | abort =>
    dsimp only
    split
    · exact ⟨h.move nofun,rfl⟩
    · exact ⟨h,rfl⟩

/-- The payout is committed against the amounts its request read: no payout of
its promotion was committed since. -/
def Spares (s : Store) : Action → Prop
  | .commit request => ∀ settled row, s.requests request=some (.inserted settled row) →
    settledTotal s.payouts row.promotionId=settled
  | _ => True

/-- Statements with their answers, oldest first. -/
abbrev History := List (Event Store Action Answer)

/-- The statement committed the payout. -/
def Commits (e : Event Store Action Answer) (row : Payout) : Prop :=
  e.after.payouts=e.before.payouts++[row]

/-- Payouts stay within what was earned. -/
structure PayoutsKept (start : Store) (h : History) : Prop where
  /-- After a committed payout its promotion is paid at most its commission. -/
  within : ∀ e∈h, ∀ row, Commits e row→settledTotal e.after.payouts row.promotionId ≤
      commission (subtotals start.orders row.promotionId)
  positive : ∀ e∈h, ∀ row, Commits e row→1≤row.amountCents
  /-- The period of a payout starts at the latest end of the recorded ones. -/
  ordered : ∀ e∈h, ∀ row, Commits e row →
    row.periodStartAt=latestEnd row.promotionId e.before.payouts ∧
      ∀ p∈e.before.payouts, p.promotionId=row.promotionId →
        ∃ first, row.periodStartAt=some first∧p.periodEndAt≤first

theorem commits_inserted {a : Action} (h : Commits (perform step s a) row) :
    ∃ request settled, a=.commit request∧s.requests request=some (.inserted settled row) := by
  have hgro : (step s a).2.payouts=s.payouts++[row] := h
  have hsta : (step s a).2.payouts≠s.payouts := by
    rw [hgro]
    intro heq
    have hlen := congrArg List.length heq
    simp at hlen
  cases a with
  | commit request =>
    unfold step at hgro
    dsimp only at hgro
    split at hgro
    · next settled stored hreq =>
      have heq := append_cancel_left hgro
      cases heq
      exact ⟨request,settled,rfl,hreq⟩
    · exact absurd hgro.symm (by simp)
  | start =>
    refine absurd ?_ hsta
    unfold step
    dsimp only
    split
    · rfl
    · split <;> rfl
  | readAmounts =>
    refine absurd ?_ hsta
    unfold step
    dsimp only
    split
    · unfold AffiliatePayouts.measure
      split
      · rfl
      · dsimp only
        split <;> rfl
    · rfl
  | readPrevious | insert | abort =>
    refine absurd ?_ hsta
    unfold step
    dsimp only
    split <;> rfl

theorem Informed.kept (h : Informed s) {a : Action} (hspa : Spares s a)
    (hcom : Commits (perform step s a) row) : settledTotal (s.payouts++[row]) row.promotionId ≤
        commission (subtotals s.orders row.promotionId)∧1≤row.amountCents ∧
      row.periodStartAt=latestEnd row.promotionId s.payouts ∧
      ∀ p∈s.payouts, p.promotionId=row.promotionId →
        ∃ first, row.periodStartAt=some first∧p.periodEndAt≤first := by
  obtain ⟨request,settled,rfl,hreq⟩ := commits_inserted hcom
  obtain ⟨hwit,hfol⟩ := h request _ hreq
  have hfre := hspa settled row hreq
  refine ⟨?_,hwit.positive,hfol hfre,fun p hp heq => ?_⟩
  · rw [settledTotal_append,if_pos rfl,hfre]
    exact hwit.outstanding
  · obtain ⟨last,hlt,hle⟩ := latestEnd_le hp heq
    exact ⟨last,(hfol hfre).trans hlt,hle⟩

/-- In every run whose payouts are committed against the amounts they were
checked with, payouts stay within what was earned. -/
theorem payouts_within_earnings {start : Store} {h : History} (hstart : ∀ r, start.requests r=none)
    (hrun : Run step (fun _ s a => Spares s a) start h s) : PayoutsKept start h := by
  have hz : Informed start := fun r phase hph => by
    rw [hstart r] at hph
    cases hph
  obtain ⟨-,-,hkp⟩ : Informed s∧s.orders=start.orders∧PayoutsKept start h := by
    refine Run.invariant (P := fun h s => Informed s∧s.orders=start.orders∧PayoutsKept start h) hrun
      ⟨hz,rfl,?_⟩ ?_
    · exact ⟨fun _ he => absurd he not_mem_nil,fun _ he => absurd he not_mem_nil,
        fun _ he => absurd he not_mem_nil⟩
    rintro past mid a ⟨hinf,hord,hkp⟩ hspa
    obtain ⟨hnx,heq⟩ := hinf.next a
    refine ⟨hnx,heq.trans hord,fun e he row hrow => ?_,fun e he row hrow => ?_,
      fun e he row hrow => ?_⟩
    · rcases mem_append.mp he with hold|hlt
      · exact hkp.within e hold row hrow
      rw [mem_singleton.mp hlt] at hrow ⊢
      have hwit := (hinf.kept hspa hrow).1
      rw [hord] at hwit
      rw [hrow]
      exact hwit
    · rcases mem_append.mp he with hold|hlt
      · exact hkp.positive e hold row hrow
      · rw [mem_singleton.mp hlt] at hrow
        exact (hinf.kept hspa hrow).2.1
    · rcases mem_append.mp he with hold|hlt
      · exact hkp.ordered e hold row hrow
      · rw [mem_singleton.mp hlt] at hrow ⊢
        exact (hinf.kept hspa hrow).2.2
  exact hkp

/-- A promotion whose paid order of one thousand cents earned one hundred. -/
def sampleStart : Store :=
  ⟨[⟨"affiliate", "promo"⟩],[⟨some "promo",.paid,1200,200⟩],[],fun _ => none⟩

/-- Two requests for all that is outstanding, one statement of each in turn. -/
def doubleClick : List Action :=
  [.start 0 "affiliate" none,.start 1 "affiliate" none,.readAmounts 0,.readAmounts 1,
    .readPrevious 0,.readPrevious 1,.insert 0 10,.insert 1 11,.commit 0,.commit 1]

/-- Two overlapping requests pay the outstanding commission twice. -/
theorem payouts_exceed_earnings : (play step [] sampleStart doubleClick).1.map Event.result =
        [.continues,.continues,.continues,.continues,.continues,.continues,.continues,
          .continues,.settled 100,.settled 100] ∧
      ¬ PayoutsKept sampleStart (play step [] sampleStart doubleClick).1 := by
  refine ⟨by decide,fun hkp => ?_⟩
  have hwit := hkp.within
    (perform step (play step [] sampleStart (doubleClick.take 9)).2 (.commit 1))
    (mem_concat_self) ⟨"promo",100,none,11⟩ rfl
  exact absurd hwit (by decide)

/-- Two requests one after the other, the second for the rest. -/
def oneByOne : List Action :=
  [.start 0 "affiliate" (some 60),.readAmounts 0,.readPrevious 0,.insert 0 10,.commit 0,
    .start 1 "affiliate" none,.readAmounts 1,.readPrevious 1,.insert 1 20,.commit 1]

/-- Requests one after the other pay the commission once. -/
theorem payouts_within_earnings_twice :
    PayoutsKept sampleStart (play step [] sampleStart oneByOne).1 ∧
      (play step [] sampleStart oneByOne).2.payouts =
        [⟨"promo",60,none,10⟩,⟨"promo",40,some 10,20⟩] := by
  have hcom : ∀ (mid : Store) (request : ℕ) (settled : ℤ) (row : Payout),
      mid.requests request=some (.inserted settled row) →
      settledTotal mid.payouts row.promotionId=settled → Spares mid (.commit request) := by
    intro mid request settled row hreq hfre settled' row' hreq'
    rw [hreq] at hreq'
    cases hreq'
    exact hfre
  have hadm : Admitted step (fun _ s a => Spares s a) [] sampleStart oneByOne :=
    ⟨trivial,trivial,trivial,trivial,hcom _ 0 0 ⟨"promo",60,none,10⟩ rfl (by decide),
      trivial,trivial,trivial,trivial,
      hcom _ 1 60 ⟨"promo",40,some 10,20⟩ rfl (by decide),trivial⟩
  exact ⟨payouts_within_earnings (fun _ => rfl) (.play Run.nil oneByOne hadm),by decide⟩

end SellRight.AffiliatePayoutSafety
