import SellRight.CreditLedgerSafety

/-!
# Safe operations of the credit service

Every operation keeps the tables safe. A restoration is safe because its
postings carry nonnegative cents of the account that redeemed; the plans are
read only for that. Hence the invariant holds in every reachable state, and
asking for the available credit never fails there.
-/

namespace SellRight.CreditServiceSafety

open RunHistory RowTable CreditMath CreditFundingLedger CreditFundingPlanner CreditService List
  CreditRestorations CreditLedgerSafety FallibleSteps

variable {accountId orderId : String} {account updated : CreditAccount}
  {hold entry redemption redeemed : CreditTransaction}

section Operations

variable {w : World} {db next : CreditLedger}
variable {α : Type}

/-- A lifted computation succeeds as before. -/
theorem lift_eq_ok {result : CreditResult α} {value : α} :
    lift result=.ok value ↔ result=.ok value := by
  cases result <;> simp [lift]

/-- A met requirement. -/
theorem ensure_eq_ok {fact : Bool} {code : CreditErrorCode} {message : String}
    (hok : ensure fact code message=.ok ()) : fact=true := by
  by_contra hfac
  rw [ensure,if_neg hfac] at hok
  cases hok

theorem lockAccount_eq_ok
    (hlk : lockAccount db accountId=.ok account) : account∈db.accounts∧account.id=accountId := by
  rw [lockAccount] at hlk
  split at hlk
  · next found hfin =>
    cases hlk
    exact ⟨mem_of_find?_eq_some hfin,by simpa using find?_some hfin⟩
  · cases hlk

theorem lockOrder_eq_ok {order : OrderRow}
    (hlk : lockOrder w orderId=.ok order) : order.id=orderId := by
  rw [lockOrder] at hlk
  split at hlk
  · cases hlk
  · next found hfin =>
    split_ifs at hlk
    cases hlk
    simpa using find?_some hfin

theorem pendingForOrder_eq_some (hfin : pendingForOrder db orderId=some hold) :
    hold∈db.transactions∧hold.orderId=some orderId∧isHold hold=true := by
  have hmt := find?_some hfin
  rw [Bool.and_eq_true,decide_eq_true_eq] at hmt
  exact ⟨mem_of_find?_eq_some hfin,hmt⟩

variable {out : CreditTransaction}

theorem insertEntry_eq_ok (hins : insertEntry db entry=.ok (out,next)) :
    out=entry∧next = {db with transactions := db.transactions++[entry]} ∧
      entry.id∉db.transactions.map CreditTransaction.id := by
  rw [insertEntry] at hins
  split at hins
  · cases hins
  · next hno =>
    cases hins
    refine ⟨rfl,rfl,?_⟩
    intro hmem
    obtain ⟨old,hold,heq⟩ := mem_map.mp hmem
    rw [entryViolation,if_pos (any_eq_true.mpr ⟨old,hold,by simpa using heq⟩)] at hno
    cases hno

/-- A hold is inserted only where its order has none pending. -/
theorem insertEntry_single (hhol : isHold entry=true)
    (hord : entry.orderId.isSome=true) (hins : insertEntry db entry=.ok (out,next)) :
    ∀ other∈db.transactions, isHold other=true → other.orderId≠entry.orderId := by
  intro other hot hpen heq
  have hcla : (isHold entry&&entry.orderId.isSome&&db.transactions.any fun old =>
      decide (old.orderId=entry.orderId)&&isHold old)=true := by
    rw [hhol,hord,Bool.and_self,Bool.true_and,any_eq_true]
    exact ⟨other,hot,by simp [hpen,heq]⟩
  rw [insertEntry,entryViolation] at hins
  split at hins
  · cases hins
  · next hno =>
    split at hno
    · cases hno
    · split at hno
      · cases hno
      · simp at hno

/-- A written balance is in range. -/
theorem setBalance_eq_ok {balance : Int}
    (hset : setBalance db account balance=.ok (updated,next)) : updated = {account with balance} ∧
      next = {db with
        accounts := updateWhere (fun row => decide (row.id=account.id))
          (fun row => {row with balance}) db.accounts} ∧
      0≤balance∧balance ≤ maxCreditCents := by
  rw [setBalance,bind_eq_ok] at hset
  obtain ⟨_,hcen,hset⟩ := hset
  have hran := assertCents_eq_ok.mp (lift_eq_ok.mp hcen)
  cases hset
  exact ⟨rfl,rfl,by simpa using hran⟩

theorem issue_safe {input : IssueInput} {result : CreditAccount×String×Bool}
    (hsf : Safe db) (hiss : issue w input db=.ok (result,next)) : Safe next := by
  simp only [issue,bind_eq_ok] at hiss
  obtain ⟨_,hamo,_,-,email,-,hiss⟩ := hiss
  have hran := assertCents_eq_ok.mp (lift_eq_ok.mp hamo)
  split at hiss
  · cases hiss
  simp only [bind_eq_ok] at hiss
  obtain ⟨_,-,_,-,hiss⟩ := hiss
  split at hiss
  · simp only [bind_eq_ok] at hiss
    obtain ⟨promotion,-,hiss⟩ := hiss
    split at hiss
    · cases hiss
    · cases hiss
      exact hsf
  · simp only [bind_eq_ok] at hiss
    obtain ⟨_,-,hiss⟩ := hiss
    split at hiss
    · cases hiss
    simp only [bind_eq_ok] at hiss
    obtain ⟨_,-,hiss⟩ := hiss
    split_ifs at hiss
    simp only [bind_eq_ok] at hiss
    obtain ⟨opened,hop,⟨entry,issued⟩,hent,hiss⟩ := hiss
    cases hiss
    rw [insertAccount] at hop
    split at hop
    · cases hop
    · next hno =>
      cases hop
      obtain ⟨-,rfl,hid⟩ := insertEntry_eq_ok hent
      refine hsf.opened ?_ ?_ rfl rfl rfl hid
      · intro hmem
        obtain ⟨old,hold,heq⟩ := mem_map.mp hmem
        rw [accountViolation,if_pos (any_eq_true.mpr ⟨old,hold,by simpa using heq⟩)] at hno
        cases hno
      · change 0 ≤ input.amount∧input.amount ≤ maxCreditCents
        exact ⟨by omega,hran.2⟩

theorem countedHolds_none (db : CreditLedger) (account : CreditAccount) :
    (countedHolds none (holdsForAccount db account)).sum=heldSum db account.id := by
  rw [heldSum,countedHolds,holdsForAccount,filter_eq_self.mpr (by simp),map_map]
  rfl

/-- The credit an account has available is its balance less the holds of the
other orders, and asking for it never fails. -/
theorem available_eq (hsf : Safe db) (hacc : account∈db.accounts) (exceptOrderId : Option String) :
    availableCredit account.balance (holdsForAccount db account) exceptOrderId =
      .ok (account.balance-(countedHolds exceptOrderId (holdsForAccount db account)).sum) ∧
      (countedHolds exceptOrderId (holdsForAccount db account)).sum≤heldSum db account.id := by
  have hhol : ∀ hold∈holdsForAccount db account, 0≤hold.amount∧hold.amount ≤ maxCreditCents := by
    intro hold hmem
    obtain ⟨entry,hent,rfl⟩ := mem_map.mp hmem
    obtain ⟨hent,hmt⟩ := mem_filter.mp hent
    rw [Bool.and_eq_true] at hmt
    exact (hsf.holds entry hent hmt.2).2.2
  have hsum : heldSum db account.id=((holdsForAccount db account).map Hold.amount).sum := by
    rw [heldSum,holdsForAccount,map_map]
    rfl
  have hcou : (countedHolds exceptOrderId (holdsForAccount db account)).sum ≤
      heldSum db account.id := by
    rw [hsum,countedHolds]
    apply Sublist.sum_le_sum (filter_sublist.map Hold.amount)
    intro cents hcen
    obtain ⟨hold,hmem,rfl⟩ := mem_map.mp hcen
    exact (hhol hold hmem).1
  have hcov := hsf.held account hacc
  exact ⟨availableCredit_eq_ok (hsf.range account hacc) hhol (by omega),hcou⟩

variable {input : OperatorInput}

theorem adjust_safe {delta : Int} {result : CreditAccount} (hsf : Safe db)
    (hadj : adjust w accountId delta input db=.ok (result,next)) : Safe next := by
  simp only [adjust,bind_eq_ok] at hadj
  obtain ⟨_,-,_,-,account,hlk,hadj⟩ := hadj
  obtain ⟨hacc,-⟩ := lockAccount_eq_ok hlk
  split at hadj
  · split at hadj
    · cases hadj
    · cases hadj
      exact hsf
  · split at hadj
    · cases hadj
    simp only [bind_eq_ok] at hadj
    obtain ⟨credit,hcre,hadj⟩ := hadj
    split at hadj
    · cases hadj
    · next hcov =>
      simp only [bind_eq_ok] at hadj
      obtain ⟨⟨updated,changed⟩,hset,⟨entry,noted⟩,hent,hadj⟩ := hadj
      cases hadj
      obtain ⟨rfl,rfl,hran⟩ := setBalance_eq_ok hset
      obtain ⟨-,rfl,hid⟩ := insertEntry_eq_ok hent
      obtain ⟨hava,-⟩ := available_eq hsf hacc none
      have hhd : credit=account.balance-heldSum db account.id := by
        have heq := (lift_eq_ok.mp hcre).symm.trans hava
        rw [countedHolds_none] at heq
        exact Except.ok.inj heq
      exact hsf.post ⟨account,hacc,rfl,rfl⟩ rfl rfl hid rfl hran (by omega)

theorem disable_safe {disabled : Bool}
    {result : CreditAccount} (hsf : Safe db)
    (hdis : disable w accountId disabled input db=.ok (result,next)) : Safe next := by
  simp only [disable,bind_eq_ok] at hdis
  generalize (if disabled=true then CreditKind.disable else CreditKind.enable)=kind at hdis
  obtain ⟨_,-,account,hlk,hdis⟩ := hdis
  obtain ⟨hacc,-⟩ := lockAccount_eq_ok hlk
  split at hdis
  · split at hdis
    · cases hdis
    · cases hdis
      exact hsf
  · simp only [bind_eq_ok] at hdis
    obtain ⟨⟨entry,noted⟩,hent,hdis⟩ := hdis
    cases hdis
    obtain ⟨-,rfl,hid⟩ := insertEntry_eq_ok hent
    have hfla : Safe {db with
        accounts := updateWhere (fun row => decide (row.id=account.id))
          (fun row => {row with disabled}) db.accounts} := hsf.flag
    have hrow : {account with disabled}∈updateWhere
        (fun row : CreditAccount => decide (row.id=account.id))
        (fun row => {row with disabled}) db.accounts :=
      mem_updateWhere.mpr (.inl ⟨account,hacc,by simp,rfl⟩)
    exact hfla.note hrow rfl rfl rfl hid

theorem countedHolds_close (hsf : Safe db)
    (hmem : hold∈db.transactions) (hord : hold.orderId=some orderId)
    (status : CreditStatus) (account : CreditAccount) :
    (countedHolds (some orderId) (holdsForAccount (setStatus db hold.id status) account)).sum =
      (countedHolds (some orderId) (holdsForAccount db account)).sum := by
  have hsha : ∀ ledger : CreditLedger,
      (countedHolds (some orderId) (holdsForAccount ledger account)).sum =
        (ledger.transactions.map fun entry => if decide (entry.orderId≠some orderId) &&
          (decide (entry.accountCreditId=account.id)&&isHold entry) then entry.amount
            else 0).sum := by
    intro ledger
    rw [← sum_map_filter,countedHolds,holdsForAccount,filter_map,map_map,filter_filter]
    simp only [Option.isSome_some,true_and,Function.comp_def]
  rw [hsha,hsha,setStatus,sum_update_key CreditTransaction.id _ hsf.entryIds hmem]
  simp [hord]

theorem countedHolds_free
    (hfr : ∀ entry∈db.transactions, isHold entry=true→entry.orderId≠some orderId)
    (account : CreditAccount) :
    (countedHolds (some orderId) (holdsForAccount db account)).sum=heldSum db account.id := by
  have hall : ∀ hold∈holdsForAccount db account, hold.orderId≠some orderId := by
    intro hold hmem
    obtain ⟨entry,hent,rfl⟩ := mem_map.mp hmem
    obtain ⟨hent,hmt⟩ := mem_filter.mp hent
    rw [Bool.and_eq_true] at hmt
    exact hfr entry hent hmt.2
  rw [← countedHolds_none db account,countedHolds,countedHolds,filter_eq_self.mpr,
    filter_eq_self.mpr (by simp)]
  intro hold hmem
  simp [hall hold hmem]

/-- A new hold within the available credit keeps the tables safe. -/
theorem holdEntry_safe {input : ReserveInput} {order : OrderRow}
    {replaced : Option String} (hsf : Safe db) (hacc : account∈db.accounts)
    (hamo : 1 ≤ input.appliedAmount∧input.appliedAmount ≤ maxCreditCents)
    (hcov : (countedHolds (some order.id) (holdsForAccount db account)).sum +
      input.appliedAmount≤account.balance)
    (hins : insertEntry db (holdEntry w db order account.id input replaced) =
      .ok (entry,next)) : Safe next := by
  have hhol : isHold (holdEntry w db order account.id input replaced)=true := rfl
  have hsin := insertEntry_single hhol rfl hins
  obtain ⟨-,rfl,hid⟩ := insertEntry_eq_ok hins
  rw [countedHolds_free hsin account] at hcov
  exact hsf.place hacc rfl hhol rfl rfl ⟨by change 0 ≤ input.appliedAmount; omega,hamo.2⟩
    hid hsin hcov

variable {result : CreditTransaction}

theorem reserve_safe {input : ReserveInput} (hsf : Safe db)
    (hres : reserve w input db=.ok (result,next)) : Safe next := by
  simp only [reserve,bind_eq_ok] at hres
  obtain ⟨_,-,_,hcen,order,hloc,_,-,account,hlk,promotion,-,_,-,_,-,
    credit,hcre,_,heno,hres⟩ := hres
  have hamo : 1 ≤ input.appliedAmount∧input.appliedAmount ≤ maxCreditCents := by
    simpa using assertCents_eq_ok.mp (lift_eq_ok.mp hcen)
  have hid := lockOrder_eq_ok hloc
  obtain ⟨hacc,-⟩ := lockAccount_eq_ok hlk
  obtain ⟨hava,-⟩ := available_eq hsf hacc (some order.id)
  have hcred := Except.ok.inj ((lift_eq_ok.mp hcre).symm.trans hava)
  have hle : input.appliedAmount≤credit := by simpa using ensure_eq_ok heno
  split at hres
  · next hold hpen =>
    split at hres
    · cases hres
      exact hsf
    obtain ⟨hmem,hord,hisH⟩ := pendingForOrder_eq_some hpen
    obtain ⟨hvoi,-⟩ := hsf.close hmem hisH (show CreditStatus.void≠.pending by decide)
    refine holdEntry_safe hvoi hacc hamo ?_ hres
    rw [countedHolds_close hsf hmem (hid.symm ▸ hord)]
    omega
  · exact holdEntry_safe hsf hacc hamo (by omega) hres

/-- Noting a release keeps the tables safe. -/
theorem releaseEntry_safe {amount : Int} {reason : String}
    (hsf : Safe db) (hkn : hold.accountCreditId∈db.accounts.map CreditAccount.id)
    (hrel : releaseEntry w db hold amount reason=.ok (entry,next)) : Safe next := by
  obtain ⟨account,hacc,hid⟩ := mem_map.mp hkn
  obtain ⟨-,rfl,hnew⟩ := insertEntry_eq_ok hrel
  exact hsf.note hacc hid.symm rfl rfl hnew

theorem redeem_safe {input : RedeemInput} {result : Option CreditTransaction} (hsf : Safe db)
    (hred : redeem w input db=.ok (result,next)) : Safe next := by
  simp only [redeem,bind_eq_ok] at hred
  obtain ⟨_,-,order,-,hred⟩ := hred
  split at hred
  · simp only [bind_eq_ok] at hred
    obtain ⟨prior,-,hred⟩ := hred
    split at hred
    · cases hred
    · cases hred
      exact hsf
  · next hold hpen =>
    obtain ⟨hmem,-,hisH⟩ := pendingForOrder_eq_some hpen
    simp only [bind_eq_ok] at hred
    obtain ⟨account,hlk,_,-,_,hmt,hred⟩ := hred
    obtain ⟨hacc,hacco⟩ := lockAccount_eq_ok hlk
    have hwit : input.appliedAmount≤hold.amount := by
      have hfac := ensure_eq_ok hmt
      rw [Bool.and_eq_true,decide_eq_true_eq] at hfac
      exact hfac.2
    split at hred
    · simp only [bind_eq_ok] at hred
      obtain ⟨⟨entry,noted⟩,hrel,hred⟩ := hred
      cases hred
      obtain ⟨hvoi,-⟩ := hsf.close hmem hisH (show CreditStatus.void≠.pending by decide)
      exact releaseEntry_safe hvoi (hsf.known hold hmem) hrel
    · simp only [bind_eq_ok] at hred
      obtain ⟨_,-,_,-,⟨updated,paid⟩,hset,⟨entry,redeemed⟩,hent,hred⟩ := hred
      obtain ⟨rfl,rfl,hran⟩ := setBalance_eq_ok hset
      obtain ⟨-,rfl,hnew⟩ := insertEntry_eq_ok hent
      obtain ⟨hpos,hhd⟩ := hsf.close hmem hisH (show CreditStatus.posted≠.pending by decide)
      have hcov := hsf.held account hacc
      have hsf' := hpos.post ⟨account,hacc,rfl,rfl⟩ rfl rfl hnew
        (show account.balance-input.appliedAmount=account.balance + -input.appliedAmount by ring)
        hran (by rw [hhd,if_pos hacco.symm]; omega)
      split at hred
      · simp only [bind_eq_ok] at hred
        obtain ⟨⟨_,released⟩,hrel,hred⟩ := hred
        cases hred
        refine releaseEntry_safe hsf' ?_ hrel
        rw [← hacco]
        exact hsf'.known _ (mem_concat_self)
      · cases hred
        exact hsf'

theorem release_safe {cause : ReleaseCause} {result : Bool} (hsf : Safe db)
    (hrel : release w orderId cause db=.ok (result,next)) : Safe next := by
  simp only [release,bind_eq_ok] at hrel
  obtain ⟨order,-,_,-,hrel⟩ := hrel
  split at hrel
  · cases hrel
    exact hsf
  · next hold hpen =>
    obtain ⟨hmem,-,hisH⟩ := pendingForOrder_eq_some hpen
    simp only [bind_eq_ok] at hrel
    obtain ⟨account,-,mine,-,hrel⟩ := hrel
    split at hrel
    · cases hrel
      exact hsf
    simp only [bind_eq_ok] at hrel
    obtain ⟨⟨entry,noted⟩,hnot,hrel⟩ := hrel
    cases hrel
    obtain ⟨hvoi,-⟩ := hsf.close hmem hisH (show CreditStatus.void≠.pending by decide)
    exact releaseEntry_safe hvoi (hsf.known hold hmem) hnot

/-- A posting returns nonnegative cents to one account. -/
structure Returns (accountId : String) (posting : EditFundingPosting) : Prop where
  account : posting.accountCreditId=accountId
  kind : posting.kind=.restore
  status : posting.status=.posted
  delta : posting.delta=posting.amount
  amount : 0≤posting.amount

theorem postingOf_returns (redemption : CreditTransaction) (line : String) (envelope : JsonText.Json)
    (refundId : Option String) (quantity : Int) {amount : Int} (cents : List Int)
    (hamo : 0≤amount) : Returns redemption.accountCreditId
      (postingOf redemption line envelope refundId quantity amount cents) :=
  ⟨rfl,rfl,rfl,rfl,hamo⟩

section
variable {editId requestDigest line : String}

theorem planCause_returns {returned : List ℕ} {wanted : List (ℕ×TargetUnit)} {plan result : PlanState} {cause : Cause}
    (hpl : ∀ posting∈plan.postings, Returns redemption.accountCreditId posting)
    (hcau : planCause redemption editId requestDigest line returned wanted plan cause =
      .ok result) : ∀ posting∈result.postings, Returns redemption.accountCreditId posting := by
  rw [planCause] at hcau
  split at hcau
  · cases hcau
    exact hpl
  rw [bind_eq_ok] at hcau
  obtain ⟨amount,hamo,hcau⟩ := hcau
  obtain ⟨htot,hnon,-⟩ := sum_eq_ok hamo
  cases hcau
  intro posting hpos
  rcases mem_append.mp hpos with hold|hnew
  · exact hpl posting hold
  · rw [mem_singleton.mp hnew]
    exact postingOf_returns redemption line _ none _ _ (htot ▸ hnon)

theorem planLine_returns {lines : List TargetLine} {plan result : PlanState}
    (hpl : ∀ posting∈plan.postings, Returns redemption.accountCreditId posting)
    (hln : planLine redemption editId requestDigest lines plan line=.ok result) :
    ∀ posting∈result.postings, Returns redemption.accountCreditId posting := by
  rw [planLine,bind_eq_ok] at hln
  obtain ⟨_,-,hln⟩ := hln
  refine foldlM_invariant (P := fun _ (state : PlanState) => ∀ posting∈state.postings,
    Returns redemption.accountCreditId posting) hpl ?_ hln
  intro _ cause _ state next _ hst hnx
  exact planCause_returns hst hnx

end

variable {state : CreditFundingState}
variable {history : List CreditTransaction}

variable {postings : List EditFundingPosting}

theorem planEdit_returns {runtime : Runtime} {complete : Bool} {editId requestDigest : String}
    {lines : List TargetLine} {committedEdit : Option CommittedEdit} {allocation : Allocation}
    (hpl : planEditCreditFunding runtime redemption history complete editId lines committedEdit =
      .ok (.planned requestDigest postings allocation state)) :
    ∀ posting∈postings, Returns redemption.accountCreditId posting := by
  simp only [planEditCreditFunding,bind_eq_ok] at hpl
  obtain ⟨⟨before,modern⟩,-,_,-,_,-,hpl⟩ := hpl
  split at hpl
  · simp only [bind_eq_ok] at hpl
    obtain ⟨_,-,hpl⟩ := hpl
    cases hpl
  simp only [bind_eq_ok] at hpl
  obtain ⟨_,-,plan,hfol,restored,-,retained,-,funded,-,_,-,hpl⟩ := hpl
  obtain ⟨-,rfl,-,-⟩ := EditFundingResult.planned.inj (Except.ok.inj hpl)
  refine foldlM_invariant (P := fun _ (state : PlanState) => ∀ posting∈state.postings,
    Returns redemption.accountCreditId posting) (by simp) ?_ hfol
  intro _ line _ state next _ hst hnx
  exact planLine_returns hst hnx

theorem planReturn_returns
    {complete : Bool} {operation : Operation} {line : String} {indexes : List (Option Int)}
    {posting : EditFundingPosting}
    (hpl : planCreditUnitReturn redemption history complete operation line indexes =
      .ok (some posting,state)) : Returns redemption.accountCreditId posting := by
  simp only [planCreditUnitReturn,bind_eq_ok] at hpl
  obtain ⟨⟨before,modern⟩,-,_,-,units,-,hpl⟩ := hpl
  split at hpl
  · cases hpl
  simp only [bind_eq_ok] at hpl
  obtain ⟨amount,hamo,hpl⟩ := hpl
  obtain ⟨htot,hnon,-⟩ := sum_eq_ok hamo
  obtain ⟨hpos,-⟩ := Prod.mk.inj (Except.ok.inj hpl)
  rw [← Option.some.inj hpos]
  exact postingOf_returns redemption line _ _ _ _ (htot ▸ hnon)

variable {entries : List CreditTransaction}

/-- Posting returns keeps the tables safe, the account current and every
redemption as it was. -/
theorem postFundingRows_safe {extra : PostingExtra} (hsf : Safe db) (htra : Tracks db account)
    (hret : ∀ posting∈postings, Returns account.id posting)
    (hps : postFundingRows w redemption extra postings account db=.ok (entries,updated,next)) :
    Safe next∧Tracks next updated∧updated.id=account.id ∧
      ∀ orderId accountId, redemptionForOrder next orderId accountId =
        redemptionForOrder db orderId accountId := by
  induction postings generalizing account db entries with
  | nil =>
    obtain ⟨-,hrt⟩ := Prod.mk.inj (Except.ok.inj hps)
    cases hrt
    exact ⟨hsf,htra,rfl,fun _ _ => rfl⟩
  | cons posting _ ih =>
    have hpos := hret posting (by simp)
    simp only [postFundingRows,bind_eq_ok] at hps
    obtain ⟨⟨raised,paid⟩,hset,⟨entry,posted⟩,hent,⟨more,last,final⟩,hmor,hps⟩ := hps
    obtain ⟨-,hrt⟩ := Prod.mk.inj (Except.ok.inj hps)
    cases hrt
    obtain ⟨rfl,rfl,hran⟩ := setBalance_eq_ok hset
    obtain ⟨-,rfl,hnew⟩ := insertEntry_eq_ok hent
    have hhd : heldSum db account.id≤account.balance+posting.amount := by
      obtain ⟨row,hrow,hid,hbal⟩ := htra
      have hcov := hsf.held row hrow
      rw [hid,hbal] at hcov
      have hamo := hpos.amount
      omega
    have hbal : account.balance+posting.amount=account.balance+posting.delta := by rw [hpos.delta]
    have hsf' := hsf.post htra hpos.account hpos.status hnew hbal hran hhd
    have htra' : Tracks ⟨updateWhere (fun row => decide (row.id=account.id))
        (fun row => {row with balance := account.balance+posting.amount}) db.accounts,
          db.transactions++[fundingRow (nextId w db) redemption posting
            (account.balance+posting.amount) extra]⟩
        {account with balance := account.balance+posting.amount} := by
      obtain ⟨row,hrow,hid,-⟩ := htra
      exact ⟨_,mem_updateWhere.mpr (.inl ⟨row,hrow,by simp [hid],rfl⟩),hid,rfl⟩
    obtain ⟨hfin,hcur,heq,hred⟩ := ih hsf' htra'
      (fun other hot => hret other (mem_cons_of_mem _ hot)) hmor
    refine ⟨hfin,hcur,heq,fun orderId accountId => (hred orderId accountId).trans ?_⟩
    rw [redemptionForOrder,redemptionForOrder,filter_append]
    simp [fundingRow,hpos.kind]

theorem fundingResult_eq_ok {lead : String} {result : Funding α} {value : α}
    (hok : fundingResult lead result=.ok value) : result=.ok value := by
  cases result with
  | ok => exact congrArg Except.ok (Except.ok.inj hok)
  | error => cases hok

theorem lockAccount_tracks
    (hlk : lockAccount db accountId=.ok account) : Tracks db account∧account.id=accountId := by
  obtain ⟨hacc,hid⟩ := lockAccount_eq_ok hlk
  exact ⟨⟨account,hacc,rfl,rfl⟩,hid⟩

theorem evidence_redemption {evidence : FundingEvidence}
    (hrd : readCreditFundingEvidence db orderId=.ok (some evidence)) :
    redemptionForOrder db orderId none=.ok (some evidence.redemption) := by
  rw [readCreditFundingEvidence,bind_eq_ok] at hrd
  obtain ⟨found,hfd,hrd⟩ := hrd
  split at hrd
  · cases hrd
  · cases hrd
    exact hfd

theorem postEditCreditFunding_safe {input : EditCreditInput} {result : Option EditFundingResult}
    (hsf : Safe db) (hps : postEditCreditFunding w input db=.ok (result,next)) : Safe next := by
  simp only [postEditCreditFunding,bind_eq_ok] at hps
  obtain ⟨prepared,hpre,hps⟩ := hps
  split at hps
  · cases hps
    exact hsf
  · next plan evidence =>
    have hpl : ∃ runtime editId lines committed, planEditCreditFunding runtime
        evidence.redemption evidence.history true editId lines committed=.ok plan := by
      simp only [prepareEditCreditFunding,bind_eq_ok] at hpre
      obtain ⟨order,-,found,-,hpre⟩ := hpre
      split at hpre
      · cases hpre
      simp only [bind_eq_ok] at hpre
      obtain ⟨_,-,account,-,hpre⟩ := hpre
      split at hpre
      · cases hpre
      simp only [bind_eq_ok] at hpre
      obtain ⟨read,-,hpre⟩ := hpre
      split at hpre
      · cases hpre
      simp only [bind_eq_ok] at hpre
      obtain ⟨made,hmad,hpre⟩ := hpre
      cases hpre
      exact ⟨_,_,_,_,fundingResult_eq_ok hmad⟩
    split at hps
    · cases hps
      exact hsf
    simp only [bind_eq_ok] at hps
    obtain ⟨account,hlk,⟨entries,updated,posted⟩,hrs,hps⟩ := hps
    cases hps
    obtain ⟨runtime,editId,lines,committed,hpl⟩ := hpl
    obtain ⟨htra,hid⟩ := lockAccount_tracks hlk
    exact (postFundingRows_safe hsf htra (hid ▸ planEdit_returns hpl) hrs).1

/-- The redemption of an order, if it has one, is of the account. -/
def RedeemedBy (db : CreditLedger) (orderId accountId : String) : Prop :=
  ∀ redemption, redemptionForOrder db orderId none=.ok (some redemption) →
    redemption.accountCreditId=accountId

/-- Posting one restoration keeps the tables safe, the account current and
every redemption as it was. -/
theorem postRestoration_safe
    {input : RestorationInput} {entry : Option CreditTransaction} (hsf : Safe db)
    (htra : Tracks db account) (hred : RedeemedBy db input.orderId account.id)
    (hps : postRestoration w account redeemed input db=.ok (entry,updated,next)) :
    Safe next∧Tracks next updated∧updated.id=account.id ∧
      ∀ orderId accountId, redemptionForOrder next orderId accountId =
        redemptionForOrder db orderId accountId := by
  have hkp : Safe db∧Tracks db account∧account.id=account.id ∧
      ∀ orderId accountId, redemptionForOrder db orderId accountId =
        redemptionForOrder db orderId accountId := ⟨hsf,htra,rfl,fun _ _ => rfl⟩
  simp only [postRestoration,bind_eq_ok] at hps
  obtain ⟨found,hrd,hps⟩ := hps
  split at hps
  · cases hps
  · next evidence =>
    have hid := hred _ (evidence_redemption hrd)
    simp only [bind_eq_ok] at hps
    obtain ⟨state,-,hps⟩ := hps
    split at hps
    · cases hps
    split at hps
    · simp only [bind_eq_ok] at hps
      obtain ⟨prior,-,hps⟩ := hps
      obtain ⟨-,hrt⟩ := Prod.mk.inj (Except.ok.inj hps)
      cases hrt
      exact hkp
    · simp only [bind_eq_ok] at hps
      obtain ⟨_,-,hps⟩ := hps
      split at hps
      · cases hps
      simp only [bind_eq_ok] at hps
      obtain ⟨_,-,⟨planned,after⟩,hpl,hps⟩ := hps
      split at hps
      · split at hps
        · cases hps
        · obtain ⟨-,hrt⟩ := Prod.mk.inj (Except.ok.inj hps)
          cases hrt
          exact hkp
      · next posting hpla =>
        subst hpla
        split at hps
        · cases hps
        simp only [bind_eq_ok] at hps
        obtain ⟨⟨entries,raised,posted⟩,hrs,hps⟩ := hps
        obtain ⟨-,hrt⟩ := Prod.mk.inj (Except.ok.inj hps)
        cases hrt
        have hret := planReturn_returns (fundingResult_eq_ok hpl)
        refine postFundingRows_safe hsf htra ?_ hrs
        intro other hot
        rw [mem_singleton.mp hot,← hid]
        exact hret

theorem restoreLines_safe {refundId : String}
    {frozen : Option FrozenReturns} {lines : List RefundLineRow} {seen : List String} (hsf : Safe db)
    (htra : Tracks db account) (hred : RedeemedBy db orderId account.id)
    (hres : restoreLines w redeemed orderId refundId frozen lines seen account db =
      .ok (entries,next)) : Safe next := by
  induction lines generalizing seen account db entries with
  | nil =>
    cases hres
    exact hsf
  | cons _ _ ih =>
    rw [restoreLines] at hres
    split at hres
    · cases hres
    simp only [bind_eq_ok] at hres
    obtain ⟨unit,-,⟨entry,updated,posted⟩,hps,⟨more,final⟩,hmor,hres⟩ := hres
    cases hres
    obtain ⟨hsf',htra',hid,heq⟩ := postRestoration_safe hsf htra hred hps
    refine ih hsf' htra' ?_ hmor
    intro redemption hfd
    rw [heq] at hfd
    rw [hid]
    exact hred redemption hfd

theorem restoreRefund_safe {refundId : String} {result : List CreditTransaction}
    (hsf : Safe db) (hres : restoreRefund w orderId refundId db=.ok (result,next)) : Safe next := by
  simp only [restoreRefund,bind_eq_ok] at hres
  obtain ⟨order,-,hres⟩ := hres
  split at hres
  · cases hres
  simp only [bind_eq_ok] at hres
  obtain ⟨_,-,found,hfd,hres⟩ := hres
  split at hres
  · cases hres
    exact hsf
  · next redeemed =>
    simp only [bind_eq_ok] at hres
    obtain ⟨_,-,account,hlk,read,-,hres⟩ := hres
    obtain ⟨htra,hid⟩ := lockAccount_tracks hlk
    have hred : RedeemedBy db orderId account.id := by
      intro redemption heq
      cases hfd.symm.trans heq
      exact hid.symm
    split at hres
    · cases hres
    simp only [bind_eq_ok] at hres
    obtain ⟨frozen,-,hres⟩ := hres
    split at hres
    · cases hres
    split at hres
    · cases hres
    simp only [bind_eq_ok] at hres
    obtain ⟨_,-,hres⟩ := hres
    split at hres
    · split at hres
      · simp only [bind_eq_ok] at hres
        obtain ⟨_,-,hres⟩ := hres
        exact restoreLines_safe hsf htra hred hres
      · exact restoreLines_safe hsf htra hred hres
    · exact restoreLines_safe hsf htra hred hres

theorem redemption_account
    (hfd : redemptionForOrder db orderId (some accountId)=.ok (some redeemed)) :
    RedeemedBy db orderId accountId := by
  intro redemption hall
  have hmin : redeemed∈db.transactions.filter fun entry =>
      decide (entry.orderId=some orderId)&&decide (entry.kind=.redeem) &&
        decide (entry.status=.posted) &&
          (some accountId).all fun account => decide (entry.accountCreditId=account) := by
    rw [redemptionForOrder] at hfd
    split at hfd
    · cases hfd
    · next entry hlis =>
      cases hfd
      rw [hlis]
      exact mem_singleton_self _
    · cases hfd
  obtain ⟨hmem,hmt⟩ := mem_filter.mp hmin
  rw [Bool.and_eq_true] at hmt
  have hacc : redeemed.accountCreditId=accountId := by simpa using hmt.2
  rw [redemptionForOrder] at hall
  split at hall
  · cases hall
  · next entry hlis =>
    obtain rfl := Option.some.inj (Except.ok.inj hall)
    have hsha : redeemed∈[entry] := by
      rw [← hlis]
      exact mem_filter.mpr ⟨hmem,by rw [hmt.1]; rfl⟩
    rw [← mem_singleton.mp hsha]
    exact hacc
  · cases hall

/-- Restoring by hand keeps the tables safe. -/
theorem restoreManual_safe {input : RestoreManualInput}
    (hsf : Safe db) (hres : restoreManual w input db=.ok (result,next)) : Safe next := by
  simp only [restoreManual,bind_eq_ok] at hres
  obtain ⟨_,-,_,-,_,-,order,-,hres⟩ := hres
  split at hres
  · cases hres
  simp only [bind_eq_ok] at hres
  obtain ⟨found,hfd,hres⟩ := hres
  split at hres
  · cases hres
  simp only [bind_eq_ok] at hres
  obtain ⟨_,-,account,hlk,hres⟩ := hres
  obtain ⟨htra,hid⟩ := lockAccount_tracks hlk
  split at hres
  · cases hres
  simp only [bind_eq_ok] at hres
  obtain ⟨units,-,⟨entry,updated,posted⟩,hps,hres⟩ := hres
  have hsf' := (postRestoration_safe hsf htra (hid ▸ redemption_account hfd) hps).1
  split at hres
  · cases hres
  · cases hres
    exact hsf'

/-- A result kept only for its tables. -/
theorem map_snd_eq_ok {result : ServiceResult (α×CreditLedger)}
    (hmap : result.map Prod.snd=.ok next) : ∃ value, result=.ok (value,next) := by
  cases result with
  | error => cases hmap
  | ok pair =>
    cases hmap
    exact ⟨pair.1,rfl⟩

/-- Every operation keeps the tables safe. -/
theorem runAction_safe {action : CreditAction} (hsf : Safe db)
    (hrun : runAction w action db=.ok next) : Safe next := by
  cases action with
  | issue => exact issue_safe hsf (map_snd_eq_ok hrun).choose_spec
  | adjust => exact adjust_safe hsf (map_snd_eq_ok hrun).choose_spec
  | disable => exact disable_safe hsf (map_snd_eq_ok hrun).choose_spec
  | reserve => exact reserve_safe hsf (map_snd_eq_ok hrun).choose_spec
  | redeem => exact redeem_safe hsf (map_snd_eq_ok hrun).choose_spec
  | release => exact release_safe hsf (map_snd_eq_ok hrun).choose_spec
  | postEditCreditFunding => exact postEditCreditFunding_safe hsf (map_snd_eq_ok hrun).choose_spec
  | restoreRefund => exact restoreRefund_safe hsf (map_snd_eq_ok hrun).choose_spec
  | restoreManual => exact restoreManual_safe hsf (map_snd_eq_ok hrun).choose_spec

/-- One step keeps the tables safe, whether it succeeds or fails. -/
theorem creditStep_safe (hsf : Safe db) (call : World×CreditAction) :
    Safe (creditStep db call).2 := by
  rw [creditStep]
  split
  · next hrun => exact runAction_safe hsf hrun
  · exact hsf

end Operations

theorem pending_le_one {db : CreditLedger} (hsf : Safe db) (orderId : String) :
    (db.transactions.filter fun entry =>
      decide (entry.orderId=some orderId)&&isHold entry).length≤1 := by
  generalize hlis : (db.transactions.filter fun entry =>
    decide (entry.orderId=some orderId)&&isHold entry)=pending
  have hmem : ∀ entry∈pending, entry∈db.transactions∧entry.orderId=some orderId ∧
      isHold entry=true := by
    intro entry hent
    rw [← hlis,mem_filter,Bool.and_eq_true,decide_eq_true_eq] at hent
    exact hent
  have hnod : pending.Nodup := by
    rw [← hlis]
    exact (Nodup.of_map _ hsf.entryIds).filter _
  match pending, hmem, hnod with
  | [],_,_ => simp
  | [_],_,_ => simp
  | first::second::rest, hmem, hnod =>
    obtain ⟨hfst,hfirs,hfir⟩ := hmem first (by simp)
    obtain ⟨hsec,hsecondOrder,hseco⟩ := hmem second (by simp)
    have heq := hsf.single first hfst second hsec hfir hseco (hfirs.trans hsecondOrder.symm)
    rw [nodup_cons] at hnod
    exact absurd (by simp [heq]) hnod.1

/-- In every reachable state of the service a balance lies in the stored
range, is the sum of the account's posted entries and covers its pending
holds, no order has two pending holds, and asking for available credit does
not fail. -/
theorem credit_ledger_safety {h : List (Event CreditLedger (World×CreditAction)
      (ServiceResult Unit))} {db : CreditLedger}
    (hrun : Run creditStep (fun _ _ _ => True) ⟨[],[]⟩ h db) :
    (∀ account∈db.accounts, 0≤account.balance∧account.balance≤2147483647 ∧
      account.balance=postedSum db account.id∧heldSum db account.id≤account.balance ∧
      ∀ exceptOrderId, ∃ credit, available db account exceptOrderId=.ok credit) ∧
    ∀ orderId, (db.transactions.filter fun entry =>
      decide (entry.orderId=some orderId)&&isHold entry).length≤1 := by
  have hsf : Safe db :=
    hrun.state_invariant safe_empty fun _ _ call hsf _ => creditStep_safe hsf call
  refine ⟨?_,pending_le_one hsf⟩
  intro account hacc
  refine ⟨(hsf.range account hacc).1,(hsf.range account hacc).2,
    hsf.posted account hacc,hsf.held account hacc,?_⟩
  intro exceptOrderId
  exact ⟨_,lift_eq_ok.mpr (available_eq hsf hacc exceptOrderId).1⟩

def samplePromotion : PromotionRow where
  id := "promotion-1"
  code := some "welcome"
  accountCredit := true
  enabled := true
  startsAt := none
  endsAt := none
  stackOrder := some 1

/-- A store with one order awaiting payment and one settled order. -/
def sampleWorld (promotions : List PromotionRow) : World where
  storeCurrency := some "CAD"
  promotions := promotions
  promotionInserts := true
  orders := ["order-1", "order-2"].map fun id => {
    id
    code := "S" ++ id
    state := .pendingPayment
    currency := "CAD"
    promotionId := some "promotion-1"
    grandTotal := 900
    snapshotVersion := none
    snapshotDigest := ""
    reconciliationRequired := false}
  settledOrders := ["order-2"]
  billedLines := fun _ => [⟨"line-1",2⟩]
  pendingEdits := []
  refunds := []
  refundLines := []
  runtime := ⟨fun text => text,fun a b => decide (a≤b)⟩
  lower := fun text => text
  newId := fun n => String.ofList (replicate n 't')
  newAccountId := "account-1"
  newPromotionId := "promotion-1"
  randomCode := "0000"
  evidenceCheck := fun _ _ => .ok ()
  anchorCheck := fun _ _ => .ok ()
  currentPricing := fun _ _ => .ok none
  refundEvidence := fun _ => .ok none
  unitReturns := fun _ => .ok none

/-- Issue a credit, hold it for two orders, change one hold, adjust the
balance and settle one order below its hold. -/
def sampleCalls : List (World×CreditAction) :=
  (sampleWorld [],.issue ⟨"a@b.ca",1000, "k",none,some "welcome"⟩) ::
  [.reserve ⟨"order-1", "account-1",300,.arrangingPayment,0, "h1"⟩,
    .reserve ⟨"order-2", "account-1",500,.arrangingPayment,0, "h2"⟩,
    .reserve ⟨"order-2", "account-1",400,.arrangingPayment,0, "h3"⟩,
    .adjust "account-1" (-250) ⟨"o1", "op", "fix"⟩,
    .redeem ⟨"order-2",350,.single "line-1" [200,150]⟩].map fun action =>
      (sampleWorld [samplePromotion],action)

/-- The sample calls leave 400 cents of which 300 are held, and the ledger
is safe there. -/
theorem credit_ledger_safety_settled : let db := (play creditStep [] ⟨[],[]⟩ sampleCalls).2
    db.accounts.map CreditAccount.balance=[400]∧heldSum db "account-1" = 300 ∧
      postedSum db "account-1" = 400 ∧
      ∀ orderId, (db.transactions.filter fun entry =>
        decide (entry.orderId=some orderId)&&isHold entry).length≤1 := by
  refine ⟨by decide +kernel,by decide +kernel,by decide +kernel,?_⟩
  exact (credit_ledger_safety (Run.nil.play sampleCalls (by simp [sampleCalls,Admitted]))).2

end SellRight.CreditServiceSafety
