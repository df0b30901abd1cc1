import SellRight.RunHistory
import SellRight.StaffRequests

/-!
# Staff authority is never self-granted

Staff requests of one store in any order, each with a principal resolved at
any earlier moment. Invites are issued once and numbered, so whatever a request
read of an invite or an account before the lock is still true of it under the
lock, and a spent invite stays spent.
-/

namespace SellRight.StaffAuthority

open StaffMembership StaffRequests RowTable RunHistory FallibleSteps List

/-- One executed transaction. -/
abbrev Past := List (Event Store Action Answer)

/-- A value was read from the current or an earlier state. -/
def ReadAt {β : Type} (h : Past) (s : Store) (value : Store → β) (seen : β) : Prop :=
  seen=value s∨∃ e∈h, seen=value e.before

/-- What a request read before the lock was true at that moment, and drawn
identifiers are new. -/
def Admissible (h : Past) (s : Store) (action : Action) : Prop :=
  (∀ caller, callerOf action=some caller →
    ReadAt h s (fun t => roleOf t caller.id) (some caller.access.role)) ∧
  match action with
  | .addStaff r => accountById s r.drawn=none ∧
      ReadAt h s (fun t => adminKindByEmail t r.email) r.kindRead
  | .changeRole r => ReadAt h s (fun t => adminKindById t r.adminUserId) r.kindRead
  | .createInvite r => ReadAt h s (fun t => adminKindByEmail t r.email) r.kindRead
  | .acceptInvite r => accountById s r.drawn=none ∧
      (r.invite∈s.invites∨∃ e∈h, r.invite∈e.before.invites) ∧
      ReadAt h s (fun t => adminKindByEmail t r.invite.email) r.kindRead ∧
      ReadAt h s (fun t => accountByEmail t r.invite.email) r.existing ∧
      ∀ me, r.me=some me→me∈s.accounts
  | .createAgentSeat r => accountById s r.drawn=none
  | .createAccount account => accountById s account.id=none∧accountByEmail s account.email=none ∧
      (account.kind=.agent→account.hasPassword=false)
  | _ => True

def IssuedBy (e : Event Store Action Answer) (invite : Invite) : Prop :=
  e.result=.invited invite.id∧∃ r, e.action=.createInvite r∧r.email=invite.email ∧
    r.role=invite.role∧(r.role=.owner → roleOf e.before r.caller.id=some .owner)

/-- The state after a history: invites in it or in its past were issued by
events of the history, every identifier once. -/
structure Traced (h : Past) (s : Store) : Prop where
  valid : Valid s
  accounts : ∀ e∈h, ∀ account, account∈e.before.accounts∨account∈e.after.accounts →
    account∈s.accounts
  issued : ∀ invite∈s.invites, ∃ e∈h, IssuedBy e invite
  pastIssued : ∀ e∈h, ∀ invite∈e.before.invites, ∃ i∈h, IssuedBy i invite
  once : ∀ e∈h, ∀ e'∈h, ∀ id, e.result=.invited id→e'.result=.invited id→e=e'
  early : ∀ e∈h, ∀ id, e.result=.invited id→id<s.nextInvite

variable {h : Past} {s start : Store} {a : Action} {id : ℕ}

/-- A value read from the accounts of an earlier state is still there. -/
theorem Traced.read_account (htra : Traced h s) {email : String}
    {seen : Option Account} (hrd : ReadAt h s (fun t => accountByEmail t email) seen)
    {account : Account} (hso : seen=some account) : account∈s.accounts∧account.email=email := by
  rcases hrd with hnow|⟨e,he,hpa⟩
  · exact accountByEmail_eq_some (hnow.symm.trans hso)
  · obtain ⟨hmem,hema⟩ := accountByEmail_eq_some (hpa.symm.trans hso)
    exact ⟨htra.accounts e he account (.inl hmem),hema⟩

/-- What a transaction does: it is refused and changes nothing, or it answers
as its kind does and its facts hold. -/
def Outcome (s : Store) (a : Action) (answer : Answer) (s' : Store) : Prop :=
  ((∃ error, answer=.refused error)∧s'=s)∨((answer=.done∧∀ r, a≠.createInvite r) ∨
      (answer=.invited s.nextInvite∧∃ r, a=.createInvite r))∧Facts s a s'

/-- A request that may be refused. -/
theorem settle_outcome {success : Answer} {result : Except HttpError Store}
    (hans : (success=.done∧∀ r, a≠.createInvite r) ∨
      (success=.invited s.nextInvite∧∃ r, a=.createInvite r))
    (hfac : ∀ s', result=.ok s' → Facts s a s') :
    Outcome s a (settle s success result).1 (settle s success result).2 := by
  cases hres : result with
  | error error => exact .inl ⟨⟨error,rfl⟩,rfl⟩
  | ok s' => exact .inr ⟨hans,hfac s' hres⟩

theorem step_outcome (htra : Traced h s) (hall : Admissible h s a) (hcur : Current s a) :
    Outcome s a (step s a).1 (step s a).2 := by
  have hval := htra.valid
  cases a with
  | addStaff =>
    exact settle_outcome (.inl ⟨rfl,by simp⟩)
      fun _ h => addStaff_facts hval hall.2.1 hcur h
  | changeRole =>
    exact settle_outcome (.inl ⟨rfl,by simp⟩) fun _ h => changeRole_facts hval hcur h
  | removeStaff =>
    exact settle_outcome (.inl ⟨rfl,by simp⟩) fun _ h => removeStaff_facts hval h
  | createInvite r => exact settle_outcome (.inr ⟨rfl,r,rfl⟩) fun _ h => createInvite_facts hval h
  | discardInvite id => exact .inr ⟨.inl ⟨rfl,by simp⟩,discardInvite_facts hval id⟩
  | acceptInvite =>
    obtain ⟨-,hdra,-,-,hrd,hme⟩ := hall
    exact settle_outcome (.inl ⟨rfl,by simp⟩) fun _ h =>
      acceptInvite_facts hval hdra (fun _ hso => htra.read_account hrd hso) hme h
  | changePermissions =>
    exact settle_outcome (.inl ⟨rfl,by simp⟩) fun _ h => changePermissions_facts hval h
  | createAgentSeat =>
    exact settle_outcome (.inl ⟨rfl,by simp⟩)
      fun _ h => createAgentSeat_facts hval hall.2 hcur h
  | removeAgentSeat =>
    exact settle_outcome (.inl ⟨rfl,by simp⟩)
      fun _ h => removeAgentSeat_facts hval hcur h
  | createAccount =>
    obtain ⟨-,hid,hema,hage⟩ := hall
    exact .inr ⟨.inl ⟨rfl,by simp⟩,createAccount_facts hval hid hema hage⟩

variable {e : Event Store Action Answer}
variable {s' : Store}

/-- An event keeps the trace when it only adds accounts and its invites are old
ones or its own. -/
theorem Traced.grow (htra : Traced h s)
    (hbef : e.before=s) (haft : e.after=s') (hval : Valid s') (hacc : s.accounts⊆s'.accounts)
    (hgro : s.nextInvite ≤ s'.nextInvite)
    (hans : ∀ id, e.result=.invited id→id=s.nextInvite∧id<s'.nextInvite)
    (hinv : ∀ invite∈s'.invites, IssuedBy e invite ∨
      ∃ old∈s.invites, ∀ i, IssuedBy i old→IssuedBy i invite) :
    Traced (h++[e]) s' := by
  have hpa : ∀ x∈h++[e], x∈h∨x=e := by simp
  have hiss : ∀ old∈s.invites, ∃ i∈h++[e], IssuedBy i old := by
    intro old hmem
    obtain ⟨i,hi,hiss⟩ := htra.issued old hmem
    exact ⟨i,mem_append_left _ hi,hiss⟩
  subst hbef haft
  refine ⟨hval,?_,?_,?_,?_,?_⟩
  · intro x hx account hmem
    rcases hpa x hx with hold|rfl
    · exact hacc (htra.accounts x hold account hmem)
    · exact hmem.elim (fun h => hacc h) id
  · intro invite hmem
    rcases hinv invite hmem with hnew|⟨old,hold,hsam⟩
    · exact ⟨e,mem_concat_self,hnew⟩
    · obtain ⟨i,hi,hold⟩ := hiss old hold
      exact ⟨i,hi,hsam i hold⟩
  · intro x hx invite hmem
    rcases hpa x hx with hold|rfl
    · obtain ⟨i,hi,hold⟩ := htra.pastIssued x hold invite hmem
      exact ⟨i,mem_append_left _ hi,hold⟩
    · exact hiss invite hmem
  · intro x hx y hy id hid hid'
    rcases hpa x hx with hold|rfl <;> rcases hpa y hy with hold'|rfl
    · exact htra.once x hold y hold' id hid hid'
    · have hlt := htra.early x hold id hid
      have heq := hans id hid'
      omega
    · have hlt := htra.early y hold' id hid'
      have heq := hans id hid
      omega
    · rfl
  · intro x hx id hid
    rcases hpa x hx with hold|rfl
    · exact (htra.early x hold id hid).trans_le hgro
    · exact (hans id hid).2

/-- One more admitted transaction keeps the history traced. -/
theorem Traced.next (htra : Traced h s) (hall : Admissible h s a) (hcur : Current s a) :
    Traced (h++[perform step s a]) (step s a).2 := by
  rcases step_outcome htra hall hcur with ⟨⟨error,href⟩,hsam⟩|⟨hans,hfac⟩
  · rw [hsam]
    exact htra.grow rfl hsam htra.valid (fun _ hmem => hmem) (le_refl _)
      (fun id hid => nomatch href.symm.trans hid) fun invite hmem => .inr ⟨invite,hmem,fun _ => id⟩
  · refine htra.grow rfl rfl (hfac.valid htra.valid)
      (fun _ => hfac.accounts.subset) (hfac.invites.numbered htra.valid.invites).1 ?_ ?_
    · intro id hid
      rcases hans with ⟨hdn,-⟩|⟨hinvi,r,hact⟩
      · cases hdn.symm.trans hid
      · cases hinvi.symm.trans hid
        cases hfac.invites with
        | shrunk _ _ hcre => exact absurd hact (hcre r)
        | added => omega
        | accepted _ hact' => cases hact.symm.trans hact'
    · intro invite hmem
      cases hfac.invites with
      | shrunk _ hsub => exact .inr ⟨invite,hsub invite hmem,fun _ => id⟩
      | added r hact how _ hinv =>
        rw [hinv] at hmem
        rcases mem_concat_iff.mp hmem with hold|rfl
        · exact .inr ⟨invite,hold,fun _ => id⟩
        · rcases hans with ⟨-,hnev⟩|⟨hinvi,-⟩
          · exact absurd hact (hnev r)
          · exact .inl ⟨hinvi,r,hact,rfl,rfl,how⟩
      | accepted _ _ _ _ hinv =>
        rw [hinv] at hmem
        rcases mem_updateWhere.mp hmem with ⟨old,hold,-,rfl⟩|⟨hold,-⟩
        · exact .inr ⟨old,hold,fun _ => id⟩
        · exact .inr ⟨invite,hold,fun _ => id⟩

/-- What one admitted step of a run may do: requests read what was true, and
the condition on the step holds. -/
def Allowed (h : Past) (s : Store) (a : Action) : Prop := Admissible h s a∧Current s a

/-- The store starts with valid tables and no invites. -/
structure Opening (s : Store) : Prop where
  valid : Valid s
  invites : s.invites=[]

/-- The caller of a transaction is an owner when it commits. -/
def OwnerCaller (e : Event Store Action Answer) : Prop :=
  ∃ caller, callerOf e.action=some caller∧roleOf e.before caller.id=some .owner

/-- A transaction accepts an invite. -/
def accepts (id : ℕ) (e : Event Store Action Answer) : Bool :=
  match e.action with
  | .acceptInvite r => decide (r.invite.id=id)&&decide (e.result=.done)
  | _ => false

/-- An invite can no longer be accepted. -/
def Spent (s : Store) (id : ℕ) : Prop :=
  id<s.nextInvite∧∀ invite∈s.invites, invite.id=id→invite.acceptedAt≠none

/-- What the staff requests of a history keep. -/
structure Authority (h : Past) : Prop where
  ownerKept : ∀ e∈h, HasOwner e.before → HasOwner e.after
  /-- A new owner was made by an owner, or accepted an invite to ownership
  whose creator was an owner then. -/
  ownership : ∀ h₁ e h₂, h=h₁++e::h₂→∀ id, roleOf e.before id≠some .owner →
    roleOf e.after id=some .owner → OwnerCaller e ∨
      ∃ r, e.action=.acceptInvite r∧∃ i∈h₁, i.result=.invited r.invite.id∧OwnerCaller i
  ownersTouched : ∀ e∈h, ∀ id, roleOf e.before id=some .owner →
    roleOf e.after id≠some .owner → OwnerCaller e
  /-- A caller who is neither owner nor manager is refused. -/
  authorized : ∀ e∈h, ∀ caller, callerOf e.action=some caller →
    (∀ error, e.result≠.refused error) → Manages e.before caller.id
  acceptedOnce : ∀ id, h.countP (accepts id)≤1
  membersKept : ∀ e∈h, ∀ r, e.action=.acceptInvite r→∀ id, roleOf e.before id≠none →
    roleOf e.after id=roleOf e.before id
  /-- After a role of a person was set or deleted, no invite issued to that
  person before is accepted. -/
  invitesRevoked : ∀ h₁ e h₂, h=h₁++e::h₂→e.result=.done →
    ∀ id, targetOf e.before e.action=some id →
    ∀ account∈e.after.accounts, account.id=id→∀ e'∈h₂, ∀ r, e'.action=.acceptInvite r →
    e'.result=.done → r.invite.email=account.email→∀ i∈h₁, i.result≠.invited r.invite.id
  agents : ∀ e∈h, ∀ account∈e.after.accounts, account.kind=.agent →
    roleOf e.after account.id≠some .owner

theorem Opening.traced (hop : Opening s) : Traced [] s := by
  refine ⟨hop.valid,by simp,?_,by simp,by simp,by simp⟩
  intro invite hmem
  rw [hop.invites] at hmem
  cases hmem

theorem run_traced (hop : Opening start) (hrun : Run step Allowed start h s) : Traced h s :=
  Run.invariant (P := Traced) hrun hop.traced fun _ _ _ htra hall => htra.next hall.1 hall.2

theorem Outcome.spent {answer : Answer} (h : Outcome s a answer s')
    (hsp : Spent s id) : Spent s' id := by
  rcases h with ⟨-,rfl⟩|⟨-,hfac⟩
  · exact hsp
  obtain ⟨hlt,hno⟩ := hsp
  cases hfac.invites with
  | shrunk hnx hsub => exact ⟨by rwa [hnx],fun invite hmem => hno invite (hsub invite hmem)⟩
  | added _ _ _ _ hinv =>
    refine ⟨by omega,fun invite hmem hid => ?_⟩
    rw [hinv] at hmem
    rcases mem_concat_iff.mp hmem with hold|rfl
    · exact hno invite hold hid
    · exact absurd hid (Nat.ne_of_gt hlt)
  | accepted _ _ _ hnx hinv =>
    refine ⟨by rwa [hnx],fun invite hmem hid => ?_⟩
    rw [hinv] at hmem
    rcases mem_updateWhere.mp hmem with ⟨old,-,-,rfl⟩|⟨hold,-⟩
    · exact fun hso => nomatch hso
    · exact hno invite hold hid

theorem Outcome.accepted {r : AcceptInvite} (hval : Valid s)
    (h : Outcome s (.acceptInvite r) .done s') : ¬ Spent s r.invite.id∧Spent s' r.invite.id := by
  rcases h with ⟨⟨error,her⟩,-⟩|⟨-,hfac⟩
  · cases her
  · cases hfac.invites with
    | shrunk _ _ _ hacc => exact absurd rfl (hacc r)
    | added _ hact => cases hact
    | accepted _ hact hop hnx hinv =>
      cases hact
      obtain ⟨invite,hmem,hid,hno⟩ := hop
      refine ⟨fun hsp => hsp.2 invite hmem hid hno,?_,fun other hot heq => ?_⟩
      · rw [hnx,← hid]
        exact hval.invites invite hmem
      rw [hinv] at hot
      rcases mem_updateWhere.mp hot with ⟨old,-,-,rfl⟩|⟨-,hne⟩
      · exact fun hso => nomatch hso
      · simp [heq] at hne

theorem accepts_eq_true (h : accepts id e=true) :
    ∃ r, e.action=.acceptInvite r∧r.invite.id=id∧e.result=.done := by
  unfold accepts at h
  split at h
  · next r hact =>
    simp only [Bool.and_eq_true,decide_eq_true_eq] at h
    exact ⟨r,hact,h.1,h.2⟩
  · cases h

theorem spent_stays (hop : Opening start) (hrun : Run step Allowed start h s) :
    ∀ e∈h, Spent e.after id → Spent s id := by
  have hall : Traced h s∧∀ e∈h, Spent e.after id → Spent s id := by
    refine Run.invariant (P := fun h s => Traced h s∧∀ e∈h, Spent e.after id → Spent s id) hrun
      ⟨hop.traced,by simp⟩ ?_
    rintro h s a ⟨htra,hpa⟩ hallow
    refine ⟨htra.next hallow.1 hallow.2,fun e he hsp => ?_⟩
    rcases mem_concat_iff.mp he with hold|rfl
    · exact (step_outcome htra hallow.1 hallow.2).spent (hpa e hold hsp)
    · exact hsp
  exact hall.2

theorem accepted_once (hop : Opening start)
    (hrun : Run step Allowed start h s) (id : ℕ) : h.countP (accepts id)≤1 := by
  have hall : Traced h s∧(h.countP (accepts id)=0∨(h.countP (accepts id)=1∧Spent s id)) := by
    refine Run.invariant (P := fun h s => Traced h s ∧
      (h.countP (accepts id)=0∨(h.countP (accepts id)=1∧Spent s id))) hrun
      ⟨hop.traced,.inl rfl⟩ ?_
    rintro h s a ⟨htra,hct⟩ hallow
    have hout := step_outcome htra hallow.1 hallow.2
    refine ⟨htra.next hallow.1 hallow.2,?_⟩
    rw [countP_append,countP_singleton]
    split
    · next hacc =>
      obtain ⟨r,hact,hid,hdn⟩ := accepts_eq_true hacc
      cases hact
      cases hid
      change (step s _).1=_ at hdn
      rw [hdn] at hout
      obtain ⟨hop',hsp⟩ := hout.accepted htra.valid
      rcases hct with hz|⟨-,hsp'⟩
      · exact .inr ⟨by omega,hsp⟩
      · exact absurd hsp' hop'
    · rcases hct with hz|⟨hone,hsp⟩
      · exact .inl (by omega)
      · exact .inr ⟨by omega,hout.spent hsp⟩
  rcases hall.2 with hz|⟨hone,-⟩
  · omega
  · omega

/-- An invite accepted with success was issued once, in the past of the
acceptance, and addresses no agent. -/
theorem accepted_issued {r : AcceptInvite} (htra : Traced h s)
    (hall : Admissible h s (.acceptInvite r)) (hdn : (step s (.acceptInvite r)).1=.done) :
    (∃ i∈h, IssuedBy i r.invite) ∧
      ∀ account∈s.accounts, account.email=r.invite.email→account.kind=.human := by
  obtain ⟨-,-,hrd,-,hexi,hme⟩ := hall
  constructor
  · rcases hrd with hnow|⟨e,he,hpa⟩
    · exact htra.issued r.invite hnow
    · exact htra.pastIssued e he r.invite hpa
  · cases hres : acceptInvite s r with
    | error => simp [step,hres,settle] at hdn
    | ok =>
      intro account hmem hema
      exact acceptInvite_email htra.valid
        (fun _ hso => htra.read_account hexi hso) hme hres hmem hema

theorem revoked_spent {h₁ : Past} (hbef : Traced h₁ e.before)
    (haft : Traced (h₁++[e]) e.after)
    (hout : Outcome e.before e.action e.result e.after) (hdn : e.result=.done)
    {id : String} (htgt : targetOf e.before e.action=some id) {account : Account}
    (hmem : account∈e.after.accounts) (hid : account.id=id) (hhum : account.kind=.human)
    {invite : Invite} (hema : invite.email=account.email) {i : Event Store Action Answer}
    (hi : i∈h₁) (hiss : IssuedBy i invite) : Spent e.after invite.id := by
  rcases hout with ⟨⟨error,href⟩,-⟩|⟨-,hfac⟩
  · cases href.symm.trans hdn
  have hear := hbef.early i hi invite.id hiss.1
  have hgro := (hfac.invites.numbered hbef.valid.invites).1
  refine ⟨hear.trans_le hgro,fun other hot heq => ?_⟩
  obtain ⟨j,hj,hissu⟩ := haft.issued other hot
  have hone : j=i := by
    refine haft.once j hj i (mem_append_left _ hi) invite.id ?_ hiss.1
    rw [hissu.1,heq]
  subst hone
  obtain ⟨-,r,hact,hsen,-⟩ := hiss
  obtain ⟨-,r',hact',hsen',-⟩ := hissu
  cases hact.symm.trans hact'
  exact hfac.revoked id htgt account hmem hid hhum other hot ((hsen'.symm.trans hsen).trans hema)

/-- Staff authority is never self-granted and a store keeps an owner, in every
run whose agent seats are created and removed by callers who still manage the
store, and whose grants of ownership do not race with the creation of the very
agent account they name. -/
theorem staff_authority_kept {start s : Store} {h : Past} (hopen : Opening start)
    (hrun : Run step Allowed start h s) : Authority h := by
  have hspl : ∀ h₁ e h₂, h=h₁++e::h₂ → Traced h₁ e.before∧Admissible h₁ e.before e.action ∧
      Outcome e.before e.action e.result e.after∧Traced (h₁++[e]) e.after := by
    rintro h₁ e h₂ rfl
    obtain ⟨hpa,hall,heve⟩ := Run.split hrun
    have htra := run_traced hopen hpa
    have hnx := htra.next hall.1 hall.2
    have hout := step_outcome htra hall.1 hall.2
    rw [heve]
    exact ⟨htra,hall.1,hout,hnx⟩
  have heve : ∀ e∈h, ∃ h₁, Traced h₁ e.before∧Admissible h₁ e.before e.action ∧
      Outcome e.before e.action e.result e.after∧Traced (h₁++[e]) e.after := by
    intro e he
    obtain ⟨h₁,h₂,hlis⟩ := append_of_mem he
    exact ⟨h₁,hspl h₁ e h₂ hlis⟩
  refine ⟨?_,?_,?_,?_,accepted_once hopen hrun,?_,?_,?_⟩
  · intro e he hhas
    obtain ⟨h₁,htra,-,hout,-⟩ := heve e he
    rcases hout with ⟨-,heq⟩|⟨-,hfac⟩
    · rwa [heq]
    · exact hfac.roles.hasOwner htra.valid hhas
  · intro h₁ e h₂ hlis id hbef haft
    obtain ⟨htra,hall,hout,-⟩ := hspl h₁ e h₂ hlis
    rcases hout with ⟨-,heq⟩|⟨-,hfac⟩
    · rw [heq] at haft
      exact absurd haft hbef
    rcases hfac.roles.owner hbef haft with how|⟨r,hact,hrol⟩
    · exact .inl how
    rw [hact] at hall
    obtain ⟨-,-,hrd,-⟩ := hall
    have hiss : ∃ i∈h₁, IssuedBy i r.invite := by
      rcases hrd with hnow|⟨p,hp,hpa⟩
      · exact htra.issued r.invite hnow
      · exact htra.pastIssued p hp r.invite hpa
    obtain ⟨i,hi,hres,r',hact',-,heq,how⟩ := hiss
    exact .inr ⟨r,hact,i,hi,hres,r'.caller,by rw [hact']; rfl,how (heq.trans hrol)⟩
  · intro e he id hbef haft
    obtain ⟨h₁,htra,-,hout,-⟩ := heve e he
    rcases hout with ⟨-,heq⟩|⟨-,hfac⟩
    · rw [heq] at haft
      exact absurd hbef haft
    · exact hfac.roles.touched hbef haft
  · intro e he caller hcal hsuc
    obtain ⟨h₁,-,-,hout,-⟩ := heve e he
    rcases hout with ⟨⟨error,href⟩,-⟩|⟨-,hfac⟩
    · exact absurd href (hsuc error)
    · exact hfac.authorized caller hcal
  · intro e he r hact id hbef
    obtain ⟨h₁,-,-,hout,-⟩ := heve e he
    rw [hact] at hout
    rcases hout with ⟨-,heq⟩|⟨-,hfac⟩
    · rw [heq]
    · exact hfac.roles.members hbef
  · intro h₁ e h₂ hlis hdn id htgt account hmem hid e' he' r hact hdn' hema i hi hres
    obtain ⟨htra,-,hout,haft⟩ := hspl h₁ e h₂ hlis
    obtain ⟨a,b,rfl⟩ := append_of_mem he'
    have hlat : h=(h₁++e::a)++e'::b := by rw [hlis]; simp
    have hrun' : Run step Allowed start ((h₁++e::a)++e'::b) s := hlat ▸ hrun
    obtain ⟨hpa,hall',heve'⟩ := Run.split hrun'
    have htra' := run_traced hopen hpa
    rw [hact] at hall' heve'
    have hstep : (step e'.before (.acceptInvite r)).1=.done := by
      rw [heve'] at hdn'
      exact hdn'
    obtain ⟨⟨j,hj,hiss⟩,hper⟩ := accepted_issued htra' hall'.1 hstep
    have heq : j=i := htra'.once j hj i (by simp [hi]) _ hiss.1 hres
    subst heq
    have hkp := htra'.accounts e (by simp) account (.inr hmem)
    have hsp := revoked_spent htra haft hout hdn htgt hmem hid
      (hper account hkp hema.symm) hema hi hiss
    have hout' := step_outcome htra' hall'.1 hall'.2
    rw [hstep] at hout'
    exact (hout'.accepted htra'.valid).1 (spent_stays hopen hpa e (by simp) hsp)
  · intro e he account hmem hage
    obtain ⟨h₁,-,-,-,haft⟩ := heve e he
    exact (haft.valid.agents account hmem hage).2

def sampleStore : Store where
  accounts := [⟨"owner", "owner@example.com",.human,true⟩,
    ⟨"manager", "manager@example.com",.human,true⟩]
  members := [⟨"owner",.owner,[]⟩,⟨"manager",.manager,[]⟩]
  invites := []
  nextInvite := 0

theorem sampleStore_opening : Opening sampleStore := by
  refine ⟨⟨by decide,by decide,by decide,fun id hrol => ?_,by decide,by decide⟩,rfl⟩
  obtain ⟨role,hso⟩ := Option.ne_none_iff_exists'.mp hrol
  obtain ⟨member,hmem,hid,-⟩ := roleOf_eq_some hso
  subst hid
  have hall : ∀ member∈sampleStore.members, ∃ account∈sampleStore.accounts,
      account.id=member.adminUserId := by decide
  exact hall member hmem

/-- The owner as the caller of a request. -/
def ownerCaller : Caller := ⟨"owner",⟨"shop",.owner⟩⟩

/-- The manager as the caller of a request. -/
def managerCaller : Caller := ⟨"manager",⟨"shop",.manager⟩⟩

/-- A new person accepts an invite and chooses a password. -/
def newcomer (invite : Invite) : AcceptInvite where
  invite := invite
  kindRead := none
  existing := none
  me := none
  csrfValid := false
  currentPassword := none
  password := true
  credentialsHold := true
  sessionLive := false
  drawn := "partner"
  now := 1
  claimedAt := 2

/-- The invite that the owner issues. -/
def partnerInvite : Invite := ⟨0, "partner@example.com",.owner,inviteTtlMs,none⟩

/-- The owner invites a second owner, who joins and demotes the first one. -/
def partnerActions : List Action :=
  [.createInvite ⟨ownerCaller, "partner@example.com",.owner,none,0⟩,
    .acceptInvite (newcomer partnerInvite),
    .changeRole ⟨⟨"partner",⟨"shop",.owner⟩⟩, "owner",.staff,some .human⟩]

/-- The requests of the partners are admitted in turn. -/
theorem partnerRun : Run step Allowed sampleStore (play step [] sampleStore partnerActions).1
    (play step [] sampleStore partnerActions).2 := by
  refine .play Run.nil partnerActions ⟨⟨⟨?_,.inl (by decide)⟩,trivial⟩,
    ⟨⟨(fun _ h => nomatch h),by decide,.inl (by decide),.inl (by decide),
      .inl (by decide),(fun _ h => nomatch h)⟩,trivial⟩,
    ⟨⟨?_,.inl (by decide)⟩,fun h => nomatch h⟩,trivial⟩
  · intro caller hcal
    cases hcal
    exact .inl (by decide)
  · intro caller hcal
    cases hcal
    exact .inl (by decide)

/-- The store changed hands and kept an owner. -/
theorem staff_authority_kept_partners :
    roleOf (play step [] sampleStore partnerActions).2 "owner" = some .staff ∧
      roleOf (play step [] sampleStore partnerActions).2 "partner" = some .owner ∧
      Authority (play step [] sampleStore partnerActions).1 :=
  ⟨by decide,by decide,staff_authority_kept sampleStore_opening partnerRun⟩

/-- The manager is demoted while a request to create an agent seat waits. -/
def demotedActions : List Action := [.changeRole ⟨ownerCaller, "manager",.readOnly,some .human⟩,
    .createAgentSeat ⟨managerCaller,.manager, "agent", "shop-agent-1@agents.invalid"⟩]

/-- A caller who may only view the store creates a manager's agent seat. -/
theorem staff_authority_stale_agent :
    Opening sampleStore∧∃ h s, Run step Admissible sampleStore h s ∧
      ∃ e∈h, ∃ caller, callerOf e.action=some caller ∧
        (∀ error, e.result≠.refused error)∧roleOf e.before caller.id=some .readOnly := by
  have hrun : Run step Admissible sampleStore (play step [] sampleStore demotedActions).1
      (play step [] sampleStore demotedActions).2 := by
    refine .play Run.nil demotedActions ⟨⟨?_,.inl (by decide)⟩,⟨?_,by decide⟩,trivial⟩
    · intro caller hcal
      cases hcal
      exact .inl (by decide)
    · intro caller hcal
      cases hcal
      exact .inr ⟨_,mem_singleton_self _,by decide⟩
  refine ⟨sampleStore_opening,_,_,hrun,
    (play step [] sampleStore demotedActions).1.get ⟨1,by decide⟩,get_mem _ _,managerCaller,
    rfl,?_,by decide⟩
  intro error her
  cases her

end SellRight.StaffAuthority
