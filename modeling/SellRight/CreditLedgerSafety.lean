import SellRight.RunHistory
import SellRight.CreditRestorations

/-!
# Safety of the credit ledger

In every reachable state an account's balance lies in the stored range, is
the sum of its posted entries and covers its pending holds, and no order has
two pending holds. Each operation of the service is built from a few table
changes that keep this: opening an account, posting a change together with
its entry, noting an entry without a change, closing a hold and placing one.
-/

namespace SellRight.CreditLedgerSafety

open List

open RowTable CreditMath CreditFundingLedger CreditFundingPlanner CreditService CreditRestorations
  FallibleSteps

variable (db : CreditLedger)

def postedSum (accountId : String) : Int :=
  ((db.transactions.filter fun entry => decide (entry.accountCreditId=accountId) &&
    decide (entry.status=.posted)).map CreditTransaction.delta).sum

/-- Sum of the pending holds of an account. -/
def heldSum (accountId : String) : Int :=
  ((db.transactions.filter fun entry => decide (entry.accountCreditId=accountId) &&
    isHold entry).map CreditTransaction.amount).sum

section
variable (accountId : String) (entry : CreditTransaction)

/-- Share of one entry in the posted sum. -/
def postedShare : Int :=
  if decide (entry.accountCreditId=accountId)&&decide (entry.status=.posted) then entry.delta
  else 0

/-- Share of one entry in the held sum. -/
def heldShare : Int :=
  if decide (entry.accountCreditId=accountId)&&isHold entry then entry.amount else 0

end

theorem postedSum_eq (accountId : String) :
    postedSum db accountId=(db.transactions.map (postedShare accountId)).sum :=
  sum_map_filter _ _ _

theorem heldSum_eq (accountId : String) :
    heldSum db accountId=(db.transactions.map (heldShare accountId)).sum :=
  sum_map_filter _ _ _

/-- What every reachable state of the credit tables satisfies. -/
structure Safe (db : CreditLedger) : Prop where
  accountIds : (db.accounts.map CreditAccount.id).Nodup
  entryIds : (db.transactions.map CreditTransaction.id).Nodup
  known : ∀ entry∈db.transactions, entry.accountCreditId∈db.accounts.map CreditAccount.id
  range : ∀ account∈db.accounts, 0≤account.balance∧account.balance ≤ maxCreditCents
  posted : ∀ account∈db.accounts, account.balance=postedSum db account.id
  held : ∀ account∈db.accounts, heldSum db account.id≤account.balance
  /-- Pending holds have an order, cents in range and no effect on the balance. -/
  holds : ∀ entry∈db.transactions, isHold entry=true →
    entry.orderId.isSome∧entry.delta=0∧0≤entry.amount∧entry.amount ≤ maxCreditCents
  single : ∀ first∈db.transactions, ∀ second∈db.transactions, isHold first=true →
    isHold second=true→first.orderId=second.orderId→first=second

theorem safe_empty : Safe ⟨[],[]⟩ := by
  constructor <;> simp

variable {entry : CreditTransaction}

section Changes

variable {db : CreditLedger}

theorem Safe.account_eq (hsf : Safe db) {first second : CreditAccount}
    (hfst : first∈db.accounts) (hsec : second∈db.accounts) (hid : first.id=second.id) :
    first=second :=
  eq_of_key_eq CreditAccount.id hsf.accountIds hfst hsec hid

/-- The in-memory account is the row of the table. -/
def Tracks (db : CreditLedger) (account : CreditAccount) : Prop :=
  ∃ row∈db.accounts, row.id=account.id∧row.balance=account.balance

section
variable (hsf : Safe db)
include hsf

/-- An entry is added while the accounts become ones that cover its shares. -/
theorem Safe.append {accounts : List CreditAccount} (hids : (accounts.map CreditAccount.id).Nodup)
    (hsub : db.accounts.map CreditAccount.id⊆accounts.map CreditAccount.id)
    (hacc : entry.accountCreditId∈accounts.map CreditAccount.id)
    (hid : entry.id∉db.transactions.map CreditTransaction.id)
    (hcov : ∀ account∈accounts, (0≤account.balance∧account.balance ≤ maxCreditCents) ∧
      account.balance=postedSum db account.id+postedShare account.id entry ∧
      heldSum db account.id+heldShare account.id entry≤account.balance)
    (hhol : isHold entry=true → (entry.orderId.isSome∧entry.delta=0∧0≤entry.amount ∧
      entry.amount ≤ maxCreditCents)∧∀ other∈db.transactions, isHold other=true →
        other.orderId≠entry.orderId) : Safe ⟨accounts,db.transactions++[entry]⟩ := by
  have hpos : ∀ id, postedSum ⟨accounts,db.transactions++[entry]⟩ id =
      postedSum db id+postedShare id entry := by
    intro id
    rw [postedSum_eq,postedSum_eq,map_append,sum_append,map_singleton,sum_singleton]
  have hhd : ∀ id, heldSum ⟨accounts,db.transactions++[entry]⟩ id =
      heldSum db id+heldShare id entry := by
    intro id
    rw [heldSum_eq,heldSum_eq,map_append,sum_append,map_singleton,sum_singleton]
  refine ⟨hids,?_,?_,fun other hot => (hcov other hot).1,?_,?_,?_,?_⟩
  · exact nodup_map_append CreditTransaction.id hsf.entryIds fun old hold heq => hid (heq ▸ mem_map_of_mem hold)
  · exact forall_mem_append.mpr ⟨fun other hot => hsub (hsf.known other hot),
      forall_mem_singleton.mpr hacc⟩
  · intro other hot
    rw [hpos]
    exact (hcov other hot).2.1
  · intro other hot
    rw [hhd]
    exact (hcov other hot).2.2
  · exact forall_mem_append.mpr ⟨hsf.holds,forall_mem_singleton.mpr fun hisH => (hhol hisH).1⟩
  · intro first hfst second hsec hone htwo heq
    rcases mem_append.mp hfst with hfst|hfst <;> rcases mem_append.mp hsec with hsec|hsec
    · exact hsf.single first hfst second hsec hone htwo heq
    · rw [mem_singleton.mp hsec] at heq htwo
      exact absurd heq ((hhol htwo).2 first hfst hone)
    · rw [mem_singleton.mp hfst] at heq hone
      exact absurd heq.symm ((hhol hone).2 second hsec htwo)
    · rw [mem_singleton.mp hfst,mem_singleton.mp hsec]

section
variable {account : CreditAccount}

theorem Safe.post (htra : Tracks db account) (hacc : entry.accountCreditId=account.id)
    (hsta : entry.status=.posted) (hid : entry.id∉db.transactions.map CreditTransaction.id)
    {balance : Int} (hbal : balance=account.balance+entry.delta)
    (hran : 0≤balance∧balance ≤ maxCreditCents) (hhd : heldSum db account.id≤balance) : Safe {
      accounts := updateWhere (fun row => decide (row.id=account.id))
        (fun row => {row with balance}) db.accounts
      transactions := db.transactions++[entry]} := by
  obtain ⟨row,hrow,hrowId,hrowB⟩ := htra
  have hnot : isHold entry=false := by simp [isHold,hsta]
  have hids : (updateWhere (fun row : CreditAccount => decide (row.id=account.id))
      (fun row => {row with balance}) db.accounts).map CreditAccount.id =
        db.accounts.map CreditAccount.id :=
    map_updateWhere _ _ fun _ _ => rfl
  refine hsf.append (hids ▸ hsf.accountIds) (fun _ hin => hids ▸ hin) ?_ hid ?_ fun hhol => ?_
  · rw [hids,hacc,← hrowId]
    exact mem_map_of_mem hrow
  · intro other hot
    rcases mem_updateWhere.mp hot with ⟨old,-,hmt,rfl⟩|⟨hold,hmt⟩
    · have heq : old.id=account.id := by simpa using hmt
      have hsum := hsf.posted row hrow
      rw [hrowId,hrowB] at hsum
      simp only [heq]
      refine ⟨hran,?_,?_⟩
      · simp [postedShare,hacc,hsta,hbal,hsum]
      · simpa [heldShare,hnot] using hhd
    · have hne : account.id≠other.id := fun heq => by simp [heq] at hmt
      refine ⟨hsf.range other hold,?_,?_⟩
      · simpa [postedShare,hacc,hne] using hsf.posted other hold
      · simpa [heldShare,hnot] using hsf.held other hold
  · rw [hnot] at hhol
    cases hhol

/-- Rewriting the same balance changes no account. -/
theorem updateWhere_balance (hacc : account∈db.accounts) :
    updateWhere (fun row : CreditAccount => decide (row.id=account.id))
      (fun row => {row with balance := account.balance}) db.accounts=db.accounts := by
  conv_rhs => rw [← map_id db.accounts]
  apply map_congr_left
  intro row hrow
  split
  · next hmt =>
    rw [hsf.account_eq hrow hacc (by simpa using hmt)]
    rfl
  · rfl

theorem Safe.note (hacc : account∈db.accounts) (hent : entry.accountCreditId=account.id)
    (hsta : entry.status=.posted) (hdel : entry.delta=0)
    (hid : entry.id∉db.transactions.map CreditTransaction.id) :
    Safe {db with transactions := db.transactions++[entry]} := by
  have hsf' := hsf.post ⟨account,hacc,rfl,rfl⟩ hent hsta hid
    (show account.balance=account.balance+entry.delta by omega) (hsf.range account hacc)
    (hsf.held account hacc)
  rwa [updateWhere_balance hsf hacc] at hsf'

end

theorem Safe.flag {accountId : String} {disabled : Bool} : Safe {db with
      accounts := updateWhere (fun row => decide (row.id=accountId))
        (fun row => {row with disabled}) db.accounts} := by
  have hids : (updateWhere (fun row : CreditAccount => decide (row.id=accountId))
      (fun row => {row with disabled}) db.accounts).map CreditAccount.id =
        db.accounts.map CreditAccount.id :=
    map_updateWhere _ _ fun _ _ => rfl
  have hmem : ∀ other∈updateWhere (fun row : CreditAccount => decide (row.id=accountId))
      (fun row => {row with disabled}) db.accounts,
      ∃ old∈db.accounts, old.id=other.id∧old.balance=other.balance := by
    intro other hot
    rcases mem_updateWhere.mp hot with ⟨old,hold,-,rfl⟩|⟨hold,-⟩
    · exact ⟨old,hold,rfl,rfl⟩
    · exact ⟨other,hold,rfl,rfl⟩
  refine ⟨hids ▸ hsf.accountIds,hsf.entryIds,?_,?_,?_,?_,hsf.holds,hsf.single⟩
  · intro entry hent
    rw [hids]
    exact hsf.known entry hent
  · intro other hot
    obtain ⟨old,hold,-,hbal⟩ := hmem other hot
    exact hbal ▸ hsf.range old hold
  · intro other hot
    obtain ⟨old,hold,hid,hbal⟩ := hmem other hot
    have hpos := hsf.posted old hold
    rwa [hid,hbal] at hpos
  · intro other hot
    obtain ⟨old,hold,hid,hbal⟩ := hmem other hot
    have hhd := hsf.held old hold
    rwa [hid,hbal] at hhd

theorem Safe.close {hold : CreditTransaction} (hmem : hold∈db.transactions)
    (hhol : isHold hold=true) {status : CreditStatus} (hsta : status≠.pending) :
    Safe (setStatus db hold.id status) ∧
      ∀ accountId, heldSum (setStatus db hold.id status) accountId =
        heldSum db accountId-if hold.accountCreditId=accountId then hold.amount else 0 := by
  have hfie := hsf.holds hold hmem hhol
  have hids : (setStatus db hold.id status).transactions.map CreditTransaction.id =
      db.transactions.map CreditTransaction.id :=
    map_updateWhere _ _ fun _ _ => rfl
  have hpen : hold.status=.pending := by
    rw [isHold,Bool.and_eq_true,decide_eq_true_eq,decide_eq_true_eq] at hhol
    exact hhol.2
  have hpos : ∀ id, postedSum (setStatus db hold.id status) id=postedSum db id := by
    intro id
    rw [postedSum_eq,postedSum_eq,setStatus,
      sum_update_key CreditTransaction.id (postedShare id) hsf.entryIds hmem]
    simp [postedShare,hpen,hfie.2.1]
  have hhd : ∀ id, heldSum (setStatus db hold.id status) id =
      heldSum db id-if hold.accountCreditId=id then hold.amount else 0 := by
    intro id
    rw [heldSum_eq,heldSum_eq,setStatus,
      sum_update_key CreditTransaction.id (heldShare id) hsf.entryIds hmem]
    have hkd : hold.kind=.reserve := by
      rw [isHold,Bool.and_eq_true,decide_eq_true_eq,decide_eq_true_eq] at hhol
      exact hhol.1
    simp only [heldShare,isHold,hkd,hpen,hsta,decide_true,decide_false,
      Bool.and_true,Bool.and_false,Bool.false_eq_true,if_false,decide_eq_true_eq]
    ring
  have hsti : ∀ entry∈(setStatus db hold.id status).transactions, isHold entry=true →
      entry∈db.transactions := by
    intro entry hent hisH
    rcases mem_updateWhere.mp hent with ⟨old,-,-,rfl⟩|⟨hold,-⟩
    · rw [isHold,Bool.and_eq_true,decide_eq_true_eq,decide_eq_true_eq] at hisH
      exact absurd hisH.2 hsta
    · exact hold
  refine ⟨⟨hsf.accountIds,hids ▸ hsf.entryIds,?_,hsf.range,?_,?_,?_,?_⟩,hhd⟩
  · intro entry hent
    rcases mem_updateWhere.mp hent with ⟨old,hold,-,rfl⟩|⟨hold,-⟩
    · exact hsf.known old hold
    · exact hsf.known entry hold
  · intro account hacc
    rw [hpos]
    exact hsf.posted account hacc
  · intro account hacc
    have hcov := hsf.held account hacc
    rw [hhd]
    split <;> omega
  · intro entry hent hisH
    exact hsf.holds entry (hsti entry hent hisH) hisH
  · intro first hfst second hsec hone htwo heq
    exact hsf.single first (hsti first hfst hone) second (hsti second hsec htwo) hone htwo heq

theorem Safe.place {account : CreditAccount} (hacc : account∈db.accounts)
    (hent : entry.accountCreditId=account.id)
    (hhol : isHold entry=true) (hord : entry.orderId.isSome) (hdel : entry.delta=0)
    (hamo : 0≤entry.amount∧entry.amount ≤ maxCreditCents)
    (hid : entry.id∉db.transactions.map CreditTransaction.id)
    (hsin : ∀ other∈db.transactions, isHold other=true → other.orderId≠entry.orderId)
    (hcov : heldSum db account.id+entry.amount≤account.balance) :
    Safe {db with transactions := db.transactions++[entry]} := by
  have hpen : entry.status=.pending := by
    rw [isHold,Bool.and_eq_true,decide_eq_true_eq,decide_eq_true_eq] at hhol
    exact hhol.2
  refine hsf.append hsf.accountIds (Subset.refl _) (hent ▸ mem_map_of_mem hacc) hid ?_
    fun _ => ⟨⟨hord,hdel,hamo⟩,hsin⟩
  intro other hot
  refine ⟨hsf.range other hot,?_,?_⟩
  · simpa [postedShare,hpen] using hsf.posted other hot
  · by_cases heq : account.id=other.id
    · rw [← hsf.account_eq hacc hot heq]
      simpa [heldShare,hent,hhol] using hcov
    · simpa [heldShare,hent,heq] using hsf.held other hot

theorem Safe.opened {account : CreditAccount} (hnew : account.id∉db.accounts.map CreditAccount.id)
    (hran : 0≤account.balance∧account.balance ≤ maxCreditCents)
    (hent : entry.accountCreditId=account.id) (hsta : entry.status=.posted)
    (hdel : entry.delta=account.balance) (hid : entry.id∉db.transactions.map CreditTransaction.id) :
    Safe ⟨db.accounts++[account],db.transactions++[entry]⟩ := by
  have hnot : isHold entry=false := by simp [isHold,hsta]
  have hfor : ∀ old∈db.transactions, old.accountCreditId≠account.id := by
    intro old hold heq
    exact hnew (heq ▸ hsf.known old hold)
  have hno : ∀ p : CreditTransaction → Bool, db.transactions.filter (fun old =>
      decide (old.accountCreditId=account.id)&&p old)=[] := fun p =>
    filter_eq_nil_iff.mpr fun old hold hmt =>
      hfor old hold (of_decide_eq_true (Bool.and_eq_true_iff.mp hmt).1)
  have hzero : postedSum db account.id=0 := by
    rw [postedSum,hno]
    rfl
  have hzer : heldSum db account.id=0 := by
    rw [heldSum,hno]
    rfl
  refine hsf.append (nodup_map_append CreditAccount.id hsf.accountIds fun old hold heq =>
    hnew (heq ▸ mem_map_of_mem hold)) (by simp) (by simp [hent]) hid ?_ fun hhol => ?_
  · refine forall_mem_append.mpr ⟨fun other hold => ?_,forall_mem_singleton.mpr ?_⟩
    · have hne : account.id≠other.id := fun heq => hnew (heq ▸ mem_map_of_mem hold)
      refine ⟨hsf.range other hold,?_,?_⟩
      · simpa [postedShare,hent,hne] using hsf.posted other hold
      · simpa [heldShare,hnot] using hsf.held other hold
    · refine ⟨hran,?_,?_⟩
      · simp [postedShare,hent,hsta,hdel,hzero]
      · simpa [heldShare,hnot,hzer] using hran.1
  · rw [hnot] at hhol
    cases hhol

end

end Changes

end SellRight.CreditLedgerSafety
