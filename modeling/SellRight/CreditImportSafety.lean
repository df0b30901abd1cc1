import SellRight.CreditImport
import SellRight.CreditLedgerSafety

/-!
# What a credit import establishes

The import keeps the monetary totals of every account and refuses a cut-over
with uncovered holds, and the tables accept one pending hold of an order. The
relations between rows that the live service relies on are not checked: they
hold of the stored rows whenever they hold of the source.
-/

namespace SellRight.CreditImportSafety

open List

open KeyedRecord RowTable CreditMath CreditService CreditLedgerSafety FallibleSteps CreditImport
open JsonText (Json Plain parse_stringify stringify)

variable {ctx : ImportContext} {credits : List SourceCredit}
  {promotions : List SourceCreditPromotion} {transactions : List SourceCreditTransaction}
  {source : CreditSourceGraph} {target : CreditTargetGraph} {db : CreditLedger}

/-- Sum of the deltas of an account, whatever the status. -/
def deltaSum (db : CreditLedger) (accountId : String) : ℤ :=
  ((db.transactions.filter fun entry => decide (entry.accountCreditId=accountId)).map
    CreditTransaction.delta).sum

def restoredSum (db : CreditLedger) (redemptionId : String) : ℤ :=
  ((db.transactions.filter fun entry => decide (entry.kind=.restore∧entry.status=.posted ∧
    entry.relatedTransactionId=some redemptionId)).map CreditTransaction.amount).sum

def isRedemption (entry : CreditTransaction) : Bool :=
  decide (entry.kind=.redeem∧entry.status=.posted)

/-- Ledger invariant of the live service. -/
structure Established (db : CreditLedger) : Prop where
  posted : ∀ account∈db.accounts, account.balance=postedSum db account.id
  held : ∀ account∈db.accounts, heldSum db account.id≤account.balance
  holds : ∀ first∈db.transactions, ∀ second∈db.transactions, isHold first=true →
    isHold second=true→∀ orderId, first.orderId=some orderId →
      second.orderId=some orderId→first=second
  redemptions : ∀ first∈db.transactions, ∀ second∈db.transactions,
    isRedemption first=true→isRedemption second=true→∀ orderId,
      first.orderId=some orderId→second.orderId=some orderId→first=second
  /-- A posted restoration of an order follows a redemption of its account and order. -/
  restorations : ∀ entry∈db.transactions, entry.kind=.restore→entry.status=.posted →
    ∀ orderId, entry.orderId=some orderId→∃ redemption∈db.transactions,
      entry.relatedTransactionId=some redemption.id∧redemption.kind=.redeem ∧
        redemption.accountCreditId=entry.accountCreditId∧redemption.orderId=some orderId
  /-- Restorations stay within a redemption that has an operational allocation. -/
  restored : ∀ redemption∈db.transactions, redemption.kind=.redeem →
    redemption.operationalAllocation.isSome → restoredSum db redemption.id≤redemption.amount

/-- What the import establishes whatever the source holds. -/
structure Retained (db : CreditLedger) : Prop where
  deltas : ∀ account∈db.accounts, account.balance=deltaSum db account.id
  held : ∀ account∈db.accounts, heldSum db account.id≤account.balance
  holds : ∀ first∈db.transactions, ∀ second∈db.transactions, isHold first=true →
    isHold second=true→∀ orderId, first.orderId=some orderId →
      second.orderId=some orderId→first=second
  related : ∀ entry∈db.transactions, ∀ relatedId, entry.relatedTransactionId=some relatedId →
    ∃ other∈db.transactions, other.id=relatedId∧other.accountCreditId=entry.accountCreditId

def sourceRestored (transactions : List SourceCreditTransaction) (redemptionId : String) : ℤ :=
  ((transactions.filter fun tx => decide (tx.kind = "RESTORE" ∧ tx.status = "POSTED" ∧
    tx.relatedTransactionId=some redemptionId)).map SourceCreditTransaction.amount).sum

/-- Change of a source balance by entries that are not posted. -/
def unpostedTotal (transactions : List SourceCreditTransaction) (accountId : String) : ℤ :=
  ((transactions.filter fun tx => decide (tx.accountCreditId=accountId ∧
    tx.status ≠ "POSTED")).map SourceCreditTransaction.delta).sum

/-- Relations between source rows. -/
structure Coherent (credits : List SourceCredit) (transactions : List SourceCreditTransaction) :
    Prop where
  /-- Entries that are not posted leave the balances alone. -/
  unposted : ∀ credit∈credits, unpostedTotal transactions credit.id=0
  redemptions : ∀ first∈transactions, ∀ second∈transactions,
    first.kind = "REDEEM" → first.status = "POSTED" → second.kind = "REDEEM" →
      second.status = "POSTED" → ∀ orderId, first.orderId=some orderId →
        second.orderId=some orderId→first=second
  /-- A posted restoration of an order follows a redemption of its account and order. -/
  restorations : ∀ tx∈transactions, tx.kind = "RESTORE" → tx.status = "POSTED" →
    ∀ orderId, tx.orderId=some orderId→∃ redemption∈transactions,
      tx.relatedTransactionId=some redemption.id∧redemption.kind = "REDEEM" ∧
        redemption.accountCreditId=tx.accountCreditId∧redemption.orderId=some orderId
  /-- Restorations stay within a redemption that has an allocation. -/
  restored : ∀ redemption∈transactions, redemption.kind = "REDEEM" →
    redemption.allocation.isSome→sourceRestored transactions redemption.id≤redemption.amount

variable {row : CreditTransaction} {rows : List CreditTransaction} {tx : SourceCreditTransaction}

section Building

theorem check_ok {fact : Bool} {message : String} {u : Unit}
    (h : check fact message=.ok u) : fact=true := by
  unfold check at h
  cases fact with
  | true => rfl
  | false => cases h

/-- A completed walk completed at every item. -/
theorem forM_ok {α : Type} {f : α → ImportResult Unit} {items : List α} {u : Unit}
    (h : items.forM f=.ok u) : ∀ item∈items, f item=.ok () := by
  induction items with
  | nil => exact fun item hite => absurd hite not_mem_nil
  | cons item items ih =>
    change (f item >>= fun _ => items.forM f)=.ok u at h
    obtain ⟨_,hfst,hrt⟩ := bind_eq_ok.mp h
    intro other hot
    rcases mem_cons.mp hot with rfl|hin
    · exact hfst
    · exact ih hrt other hin

theorem rowOf_some {ρ : Type} {key : ρ → String} {rows : List ρ} {id : String} {row : ρ}
    (h : rowOf key rows id=some row) : row∈rows∧key row=id := by
  unfold rowOf at h
  obtain ⟨hrow,hkey⟩ := find_key_eq_some key h
  exact ⟨mem_reverse.mp hrow,hkey⟩

theorem validate_ok {u : Unit} (h : validateCreditHistory credits transactions=.ok u) :
    ∀ credit∈credits, deltaTotal transactions credit.id=credit.balance := by
  unfold validateCreditHistory at h
  obtain ⟨_,-,hcred⟩ := bind_eq_ok.mp h
  intro credit hcre
  have hbal := forM_ok hcred credit hcre
  unfold validateBalance at hbal
  obtain ⟨_,-,hsum⟩ := bind_eq_ok.mp hbal
  exact of_decide_eq_true (check_ok hsum)

/-- A source row and the row made from it. -/
structure Imported (ctx : ImportContext) (source : CreditSourceGraph) (target : CreditTargetGraph)
    (credits : List SourceCredit) (transactions : List SourceCreditTransaction)
    (tx : SourceCreditTransaction) (row : CreditTransaction) : Prop where
  id : row.id=ctx.id "account-credit-transaction" tx.id
  account : row.accountCreditId=ctx.id "account-credit" tx.accountCreditId
  known : ∃ credit∈credits, credit.id=tx.accountCreditId
  kind : lookup kinds tx.kind=some row.kind
  status : lookup statuses tx.status=some row.status
  amount : row.amount=tx.amount
  delta : row.delta=tx.delta
  order : ∃ order, importedOrder ctx source target tx.orderId=.ok order ∧
    row.orderId=order.map TargetOrder.id
  /-- Link: the source link, to a row of the same account. -/
  related : row.relatedTransactionId =
    tx.relatedTransactionId.map (ctx.id "account-credit-transaction")
  linked : ∀ relatedId, tx.relatedTransactionId=some relatedId→∃ other∈transactions,
    other.id=relatedId∧other.accountCreditId=tx.accountCreditId
  allocation : row.operationalAllocation.isSome→tx.allocation.isSome

section

/-- The link of an imported row. -/
theorem relatedTransaction_ok {related : Option SourceCreditTransaction}
    (h : relatedTransaction transactions tx=.ok related) :
    related.map SourceCreditTransaction.id=tx.relatedTransactionId ∧
      ∀ relatedId, tx.relatedTransactionId=some relatedId→∃ other∈transactions,
        other.id=relatedId∧other.accountCreditId=tx.accountCreditId := by
  unfold relatedTransaction at h
  cases hlnk : tx.relatedTransactionId with
  | none =>
    rw [hlnk] at h
    cases h
    exact ⟨rfl,fun relatedId hno => by cases hno⟩
  | some relatedId =>
    rw [hlnk] at h
    dsimp only at h
    cases hfd : rowOf SourceCreditTransaction.id transactions relatedId with
    | none =>
      rw [hfd] at h
      cases h
    | some other =>
      rw [hfd] at h
      dsimp only at h
      obtain ⟨hot,hid⟩ := rowOf_some hfd
      by_cases hacc : other.accountCreditId=tx.accountCreditId
      · rw [if_pos hacc] at h
        cases h
        refine ⟨congrArg some hid,fun wanted hwan => ⟨other,hot,?_,hacc⟩⟩
        exact hid.trans (Option.some.inj hwan)
      · rw [if_neg hacc] at h
        cases h

theorem importAllocation_none {order : Option TargetOrder}
    {state next : Classification} {operational : Option Allocation}
    (h : importAllocation ctx source target order tx none state=.ok (operational,next)) :
    operational=none := by
  unfold importAllocation at h
  cases h
  rfl

theorem buildCreditTransaction_ok {exclusions : List ManifestExclusion}
    (h : buildCreditTransaction ctx credits transactions source target tx=.ok (row,exclusions)) :
    Imported ctx source target credits transactions tx row := by
  unfold buildCreditTransaction at h
  cases hcre : rowOf SourceCredit.id credits tx.accountCreditId with
  | none =>
    rw [hcre] at h
    cases h
  | some credit =>
    cases hkd : lookup kinds tx.kind with
    | none =>
      rw [hcre,hkd] at h
      cases h
    | some =>
      cases hsta : lookup statuses tx.status with
      | none =>
        rw [hcre,hkd,hsta] at h
        cases h
      | some =>
        rw [hcre,hkd,hsta] at h
        dsimp only at h
        obtain ⟨order,hord,h⟩ := bind_eq_ok.mp h
        obtain ⟨⟨lineId,lined⟩,-,h⟩ := bind_eq_ok.mp h
        obtain ⟨⟨refundId,refunded⟩,-,h⟩ := bind_eq_ok.mp h
        obtain ⟨allocation,hpar,h⟩ := bind_eq_ok.mp h
        obtain ⟨⟨operational,allocated⟩,hope,h⟩ := bind_eq_ok.mp h
        obtain ⟨related,hrel,h⟩ := bind_eq_ok.mp h
        obtain ⟨hlnk,hlin⟩ := relatedTransaction_ok hrel
        cases h
        refine ⟨rfl,rfl,⟨credit,(rowOf_some hcre).1,(rowOf_some hcre).2⟩,hkd,hsta,
          rfl,rfl,⟨order,hord,rfl⟩,?_,hlin,fun hso => ?_⟩
        · rw [← hlnk,Option.map_map]
          rfl
        · cases hraw : tx.allocation with
          | some => rfl
          | none =>
            rw [hraw] at hpar
            cases hpar
            rw [importAllocation_none hope] at hso
            simp [transactionRow] at hso

end

end Building

section Storing

theorem buildCreditAccounts_ok {built : BuiltAccounts}
    (h : buildCreditAccounts ctx credits promotions=.ok built) :
    Forall₂ (fun credit account => account.id=ctx.id "account-credit" credit.id ∧
      account.balance=credit.balance) credits built.accountRows := by
  refine foldlM_invariant (P := fun done built => Forall₂ (fun credit account =>
    account.id=ctx.id "account-credit" credit.id∧account.balance=credit.balance) done
      built.accountRows) Forall₂.nil ?_ h
  intro done credit rest state next _ hdn hstep
  obtain ⟨_,-,hstep⟩ := bind_eq_ok.mp hstep
  cases hpro : rowOf SourceCreditPromotion.id promotions credit.promotionId with
  | none =>
    rw [hpro] at hstep
    cases hstep
  | some =>
    rw [hpro] at hstep
    dsimp only at hstep
    obtain ⟨_,-,hstep⟩ := bind_eq_ok.mp hstep
    obtain ⟨_,-,hstep⟩ := bind_eq_ok.mp hstep
    obtain ⟨_,-,hstep⟩ := bind_eq_ok.mp hstep
    obtain ⟨stackOrder,-,hstep⟩ := bind_eq_ok.mp hstep
    cases hstep
    exact rel_append hdn (Forall₂.cons ⟨rfl,rfl⟩ Forall₂.nil)

variable {accounts : List CreditAccount}

/-- Tables after the accounts are stored. -/
theorem insertAccounts_ok {opened : CreditLedger}
    (h : accounts.foldlM insertAccount ⟨[],[]⟩=.ok opened) :
    opened=⟨accounts,[]⟩∧(accounts.map CreditAccount.id).Nodup := by
  refine foldlM_invariant (P := fun done db => db=⟨done,[]⟩ ∧
    (done.map CreditAccount.id).Nodup) ⟨rfl,nodup_nil⟩ ?_ h
  rintro done account rest state next _ ⟨rfl,hnod⟩ hstep
  unfold insertAccount at hstep
  cases hvio : accountViolation ⟨done,[]⟩ account with
  | some =>
    rw [hvio] at hstep
    cases hstep
  | none =>
    rw [hvio] at hstep
    cases hstep
    refine ⟨rfl,nodup_map_append CreditAccount.id hnod fun old hold heq => ?_⟩
    unfold accountViolation at hvio
    have hfd : (done.any fun old => decide (old.id=account.id))=true :=
      any_eq_true.mpr ⟨old,hold,decide_eq_true heq⟩
    rw [if_pos hfd] at hvio
    cases hvio

/-- Pending holds of one order are one row. -/
def SingleHolds (entries : List CreditTransaction) : Prop :=
  ∀ first∈entries, ∀ second∈entries, isHold first=true→isHold second=true →
    ∀ orderId, first.orderId=some orderId→second.orderId=some orderId→first=second

theorem entryViolation_none {entry : CreditTransaction} (h : entryViolation db entry=none) :
    (∀ old∈db.transactions, old.id≠entry.id) ∧
      (isHold entry=true→∀ orderId, entry.orderId=some orderId →
        ∀ old∈db.transactions, isHold old=true → old.orderId≠some orderId) := by
  unfold entryViolation at h
  have hid : ¬ (db.transactions.any fun old => decide (old.id=entry.id))=true := by
    intro hfd
    rw [if_pos hfd] at h
    cases h
  rw [if_neg hid] at h
  have hkey : ¬ (db.transactions.any fun old =>
      decide (old.idempotencyKey=entry.idempotencyKey))=true := by
    intro hfd
    rw [if_pos hfd] at h
    cases h
  rw [if_neg hkey] at h
  constructor
  · intro old hold heq
    exact hid (any_eq_true.mpr ⟨old,hold,decide_eq_true heq⟩)
  · intro hhol orderId hord old hold holdH heq
    have hfd : (isHold entry&&entry.orderId.isSome&&db.transactions.any fun old =>
        decide (old.orderId=entry.orderId)&&isHold old)=true := by
      rw [hhol,hord,Bool.true_and,Option.isSome_some,Bool.true_and,any_eq_true]
      exact ⟨old,hold,Bool.and_eq_true_iff.mpr ⟨decide_eq_true heq,holdH⟩⟩
    rw [if_pos hfd] at h
    cases h

/-- Tables after the transactions are stored without links. -/
theorem insertEntries_ok {opened filled : CreditLedger}
    (hope : opened.transactions=[]) (h : rows.foldlM (fun db row => do
      let (_,db) ← insertEntry db (unlinked row) return db) opened=.ok filled) :
    filled.accounts=opened.accounts∧filled.transactions=rows.map unlinked ∧
      (rows.map CreditTransaction.id).Nodup∧SingleHolds (rows.map unlinked) := by
  refine foldlM_invariant (P := fun done db => db.accounts=opened.accounts ∧
    db.transactions=done.map unlinked∧(done.map CreditTransaction.id).Nodup ∧
      SingleHolds (done.map unlinked)) ⟨rfl,hope,nodup_nil,?_⟩ ?_ h
  · exact fun first hfst => absurd hfst not_mem_nil
  rintro done row rest state next _ ⟨hacc,hent,hnod,hsin⟩ hstep
  obtain ⟨⟨entry,written⟩,hins,hstep⟩ := bind_eq_ok.mp hstep
  cases hstep
  unfold insertEntry at hins
  cases hvio : entryViolation state (unlinked row) with
  | some =>
    rw [hvio] at hins
    cases hins
  | none =>
    rw [hvio] at hins
    cases hins
    obtain ⟨hfre,hfr⟩ := entryViolation_none hvio
    rw [hent] at hfre hfr
    refine ⟨hacc,?_,nodup_map_append CreditTransaction.id hnod fun old hold => ?_,?_⟩
    · rw [map_append]
      exact congrArg (·++[unlinked row]) hent
    · exact hfre (unlinked old) (mem_map_of_mem hold)
    · rw [map_append]
      intro first hfst second hsecond hfir hsec orderId hfirs hsecondOrder
      rcases mem_append.mp hfst with hfirstOld|hfirstNew
      · rcases mem_append.mp hsecond with hsecondOld|hseco
        · exact hsin first hfirstOld second hsecondOld hfir hsec orderId hfirs hsecondOrder
        · obtain rfl := mem_singleton.mp hseco
          exact absurd hfirs (hfr hsec orderId hsecondOrder first hfirstOld hfir)
      · obtain rfl := mem_singleton.mp hfirstNew
        rcases mem_append.mp hsecond with hsecondOld|hseco
        · exact absurd hsecondOrder (hfr hfir orderId hfirs second hsecondOld hsec)
        · exact (mem_singleton.mp hseco).symm

/-- One stored row after the links are set. -/
def linkedBy (rows : List CreditTransaction) (stored : CreditTransaction) : CreditTransaction :=
  rows.foldl (fun stored row =>
    if (decide (stored.id=row.id)&&row.relatedTransactionId.isSome)=true then
      {stored with relatedTransactionId := row.relatedTransactionId}
    else stored) stored

theorem linkedBy_of_not_mem {stored : CreditTransaction}
    (hms : ∀ row∈rows, stored.id≠row.id) : linkedBy rows stored=stored := by
  induction rows with
  | nil => rfl
  | cons row _ ih =>
    have hne : stored.id≠row.id := hms row mem_cons_self
    unfold linkedBy
    rw [foldl_cons,decide_eq_false hne,Bool.false_and,if_neg Bool.false_ne_true]
    exact ih fun other hot => hms other (mem_cons_of_mem _ hot)

theorem linkedBy_unlinked (hnod : (rows.map CreditTransaction.id).Nodup) (hrow : row∈rows) :
    linkedBy rows (unlinked row)=row := by
  induction rows with
  | nil => exact absurd hrow not_mem_nil
  | cons head rows ih =>
    rw [map_cons,nodup_cons] at hnod
    by_cases hhd : row=head
    · subst hhd
      have hrt : ∀ other∈rows, row.id≠other.id := by
        intro other hot heq
        exact hnod.1 (heq ▸ mem_map_of_mem hot)
      have hstep : linkedBy (row::rows) (unlinked row)=linkedBy rows row := by
        unfold linkedBy
        rw [foldl_cons]
        congr 1
        cases hlnk : row.relatedTransactionId with
        | none =>
          rw [Option.isSome_none,Bool.and_false,if_neg Bool.false_ne_true]
          unfold unlinked
          rw [← hlnk]
        | some =>
          have hid : (unlinked row).id=row.id := rfl
          rw [Option.isSome_some,Bool.and_true,decide_eq_true hid,if_pos rfl,← hlnk]
          rfl
      rw [hstep]
      exact linkedBy_of_not_mem hrt
    · have hin : row∈rows := (mem_cons.mp hrow).resolve_left hhd
      have hne : row.id≠head.id := by
        intro heq
        exact hnod.1 (heq ▸ mem_map_of_mem hin)
      have hstep : linkedBy (head::rows) (unlinked row)=linkedBy rows (unlinked row) := by
        have hms : (unlinked row).id≠head.id := hne
        unfold linkedBy
        rw [foldl_cons,decide_eq_false hms,Bool.false_and,if_neg Bool.false_ne_true]
      rw [hstep]
      exact ih hnod.2 hin

theorem storeCredits_ok (h : storeCredits accounts rows=.ok db) :
    db=⟨accounts,rows⟩∧(accounts.map CreditAccount.id).Nodup ∧
      (rows.map CreditTransaction.id).Nodup∧SingleHolds (rows.map unlinked) := by
  unfold storeCredits at h
  obtain ⟨opened,hope,h⟩ := bind_eq_ok.mp h
  obtain ⟨filled,hfil,h⟩ := bind_eq_ok.mp h
  cases h
  obtain ⟨rfl,hdis⟩ := insertAccounts_ok hope
  obtain ⟨hacc,hent,hnod,hsin⟩ := insertEntries_ok rfl hfil
  refine ⟨?_,hdis,hnod,hsin⟩
  have hlin : rows.foldl linkRow filled.transactions=rows := by
    have hfol : rows.foldl linkRow filled.transactions=filled.transactions.map (linkedBy rows) :=
      foldl_updateWhere (fun (row stored : CreditTransaction) => decide (stored.id=row.id) &&
        row.relatedTransactionId.isSome) (fun row stored =>
          {stored with relatedTransactionId := row.relatedTransactionId}) rows filled.transactions
    rw [hfol,hent,map_map]
    conv_rhs => rw [← map_id rows]
    exact map_congr_left fun row hrow => linkedBy_unlinked hnod hrow
  rw [hlin,hacc]

end Storing

section Carrying

/-- A source ledger and the rows stored from it. -/
structure Carried (ctx : ImportContext) (source : CreditSourceGraph) (target : CreditTargetGraph)
    (credits : List SourceCredit) (transactions : List SourceCreditTransaction)
    (db : CreditLedger) : Prop where
  accounts : Forall₂ (fun credit account => account.id=ctx.id "account-credit" credit.id ∧
    account.balance=credit.balance) credits db.accounts
  accountIds : (db.accounts.map CreditAccount.id).Nodup
  rows : Forall₂ (Imported ctx source target credits transactions) transactions db.transactions
  entryIds : (db.transactions.map CreditTransaction.id).Nodup
  holds : SingleHolds (db.transactions.map unlinked)
  balances : ∀ credit∈credits, deltaTotal transactions credit.id=credit.balance
  covered : ∀ credit∈credits, sourceHeld transactions credit.id≤credit.balance

theorem carried_of_import {accounts : BuiltAccounts} {built : BuiltTransactions}
    (hacco : buildCreditAccounts ctx credits promotions=.ok accounts)
    (htra : buildCreditTransactions ctx credits transactions source target=.ok built)
    (hblo : ∀ exclusion∈built.exclusions, exclusion.blocking=false)
    (hsto : storeCredits accounts.accountRows built.rows=.ok db) :
    Carried ctx source target credits transactions db := by
  obtain ⟨rfl,hacc,hent,hsin⟩ := storeCredits_ok hsto
  obtain ⟨_,hval,htra⟩ := bind_eq_ok.mp htra
  obtain ⟨pairs,hpairs,hbui⟩ := bind_eq_ok.mp htra
  cases hbui
  refine ⟨buildCreditAccounts_ok hacco,hacc,?_,hent,hsin,validate_ok hval,fun credit hcre => ?_⟩
  · refine forall₂_map_right_iff.mpr ((mapM_eq_ok.mp hpairs).imp ?_)
    intro tx pair hpai
    exact buildCreditTransaction_ok hpai
  by_contra hove
  have hrep : exclusion "account_credit" ("pending_holds_exceed_balance: " ++
      "exact balance & holds retained; reconciliation required") true ∈
        heldExclusions credits transactions :=
    mem_map.mpr ⟨credit,mem_filter.mpr ⟨hcre,decide_eq_true (lt_of_not_ge hove)⟩,rfl⟩
  have hfl := hblo _ (mem_append_left _ hrep)
  cases hfl

/-- A source name stands for exactly one value. -/
theorem lookup_eq_iff {β : Type} {entries : List (String×β)}
    (hnms : (entries.map Prod.fst).Nodup) (hvalu : (entries.map Prod.snd).Nodup)
    {text name : String} {value wanted : β} (hfd : lookup entries text=some value)
    (hmem : (name,wanted)∈entries) : value=wanted ↔ text=name := by
  have hin : (text,value)∈entries := mem_of_lookup hfd
  constructor
  · intro hval
    exact congrArg Prod.fst (inj_on_of_nodup_map hvalu hin hmem hval)
  · intro hnm
    exact congrArg Prod.snd (inj_on_of_nodup_map hnms hin hmem hnm)

section
variable (h : Imported ctx source target credits transactions tx row) {name : String}
include h

theorem Imported.kind_iff {kind : CreditKind} (hmem : (name,kind)∈kinds) : row.kind=kind ↔ tx.kind=name :=
  lookup_eq_iff (by decide) (by decide) h.kind hmem

theorem Imported.status_iff {status : CreditStatus} (hmem : (name,status)∈statuses) : row.status=status ↔ tx.status=name :=
  lookup_eq_iff (by decide) (by decide) h.status hmem

end

theorem importedOrder_some {orderId : Option String} {order : TargetOrder}
    (h : importedOrder ctx source target orderId=.ok (some order)) :
    ∃ sourceId, orderId=some sourceId∧order.id=ctx.id "order" sourceId := by
  unfold importedOrder at h
  cases hord : orderId with
  | none =>
    rw [hord] at h
    cases h
  | some sourceId =>
    rw [hord] at h
    dsimp only at h
    split at h
    · cases hfd : lookup target.orders (ctx.id "order" sourceId) with
      | none =>
        rw [hfd] at h
        cases h
      | some found =>
        rw [hfd] at h
        dsimp only at h
        by_cases hown : found.storeId=ctx.storeId∧found.id=ctx.id "order" sourceId
        · rw [if_pos hown] at h
          cases h
          exact ⟨sourceId,rfl,hown.2⟩
        · rw [if_neg hown] at h
          cases h
    · cases h

theorem Imported.order_some
    (h : Imported ctx source target credits transactions tx row) {orderId : String}
    (hord : row.orderId=some orderId) :
    ∃ sourceId, tx.orderId=some sourceId∧orderId=ctx.id "order" sourceId := by
  obtain ⟨order,himp,hrow⟩ := h.order
  rw [hrow] at hord
  cases order with
  | none => cases hord
  | some =>
    obtain ⟨sourceId,hsou,hid⟩ := importedOrder_some himp
    exact ⟨sourceId,hsou,(Option.some.inj hord).symm.trans hid⟩

variable {other : CreditTransaction}
variable {first second : SourceCreditTransaction}

theorem Imported.order_eq
    (hfst : Imported ctx source target credits transactions first row)
    (hsec : Imported ctx source target credits transactions second other)
    (heq : first.orderId=second.orderId) : row.orderId=other.orderId := by
  obtain ⟨order,himp,hrow⟩ := hfst.order
  obtain ⟨again,haga,hot⟩ := hsec.order
  rw [← heq,himp] at haga
  rw [hrow,hot,Except.ok.inj haga]

section
variable (h : Carried ctx source target credits transactions db)
include h

theorem Carried.origin (hrow : row∈db.transactions) :
    ∃ tx∈transactions, Imported ctx source target credits transactions tx row :=
  forall₂_partner h.rows hrow

theorem Carried.stored (htx : tx∈transactions) :
    ∃ row∈db.transactions, Imported ctx source target credits transactions tx row :=
  forall₂_partner h.rows.flip htx

theorem Carried.credit_eq
    {first second : SourceCredit} (hfst : first∈credits) (hsec : second∈credits)
    (hid : ctx.id "account-credit" first.id=ctx.id "account-credit" second.id) :
    first=second := by
  have hcol : credits.map (fun credit => ctx.id "account-credit" credit.id) =
      db.accounts.map CreditAccount.id :=
    map_eq_of_forall₂ h.accounts fun _ _ hpai => hpai.1.symm
  exact inj_on_of_nodup_map (hcol ▸ h.accountIds) hfst hsec hid

theorem Carried.transaction_eq (hfst : first∈transactions)
    (hsec : second∈transactions)
    (hid : ctx.id "account-credit-transaction" first.id =
      ctx.id "account-credit-transaction" second.id) : first=second := by
  have hcol : transactions.map (fun tx => ctx.id "account-credit-transaction" tx.id) =
      db.transactions.map CreditTransaction.id :=
    map_eq_of_forall₂ h.rows fun _ _ himp => himp.id.symm
  exact inj_on_of_nodup_map (hcol ▸ h.entryIds) hfst hsec hid

theorem Carried.row_eq (hrow : row∈db.transactions)
    (hot : other∈db.transactions) (hfst : Imported ctx source target credits transactions tx row)
    (hsec : Imported ctx source target credits transactions tx other) : row=other :=
  eq_of_key_eq CreditTransaction.id h.entryIds hrow hot (hfst.id.trans hsec.id.symm)

/-- Sums over stored rows are sums over source rows. -/
theorem Carried.sum_eq {p : CreditTransaction → Bool} {q : SourceCreditTransaction → Bool}
    {f : SourceCreditTransaction → ℤ} {g : CreditTransaction → ℤ}
    (heq : ∀ tx row, Imported ctx source target credits transactions tx row →
      q tx=p row∧f tx=g row) :
    ((db.transactions.filter p).map g).sum=((transactions.filter q).map f).sum := by
  rw [sum_map_filter,sum_map_filter]
  refine congrArg sum (map_eq_of_forall₂ h.rows fun tx row himp => ?_).symm
  obtain ⟨hfil,hval⟩ := heq tx row himp
  rw [hfil,hval]

theorem Carried.account_iff
    (himp : Imported ctx source target credits transactions tx row) {credit : SourceCredit}
    (hcre : credit∈credits) :
    row.accountCreditId=ctx.id "account-credit" credit.id ↔ tx.accountCreditId=credit.id := by
  obtain ⟨own,hown,hid⟩ := himp.known
  rw [himp.account,← hid]
  constructor
  · intro heq
    rw [h.credit_eq hown hcre heq]
  · intro heq
    rw [heq]

theorem Carried.credit {account : CreditAccount} (hacc : account∈db.accounts) :
    ∃ credit∈credits, account.id=ctx.id "account-credit" credit.id ∧
      account.balance=credit.balance :=
  forall₂_partner h.accounts hacc

end

/-- Balances are sums of posted deltas up to the deltas of other entries. -/
theorem deltaTotal_eq (accountId : String) :
    deltaTotal transactions accountId=((transactions.filter fun tx =>
      decide (tx.accountCreditId=accountId)&&decide (tx.status = "POSTED")).map
        SourceCreditTransaction.delta).sum+unpostedTotal transactions accountId := by
  unfold deltaTotal unpostedTotal
  rw [sum_map_filter,sum_map_filter,sum_map_filter,← sum_map_add]
  refine congrArg sum (map_congr_left fun tx _ => ?_)
  by_cases hacc : tx.accountCreditId=accountId
  · by_cases hpos : tx.status = "POSTED"
    · simp [hacc,hpos]
    · simp [hacc,hpos]
  · simp [hacc]

section
variable (h : Carried ctx source target credits transactions db)
include h

/-- Stored holds of an account are its source holds. -/
theorem Carried.held_eq {credit : SourceCredit} (hcre : credit∈credits) :
    heldSum db (ctx.id "account-credit" credit.id)=sourceHeld transactions credit.id := by
  refine h.sum_eq fun tx row himp => ⟨?_,himp.amount.symm⟩
  have hacc := h.account_iff himp hcre
  have hkd : row.kind=.reserve ↔ tx.kind = "RESERVE" := himp.kind_iff (by decide)
  have hsta : row.status=.pending ↔ tx.status = "PENDING" := himp.status_iff (by decide)
  simp only [isHold,hacc,hkd,hsta,Bool.decide_and]

/-- What every completed import keeps. -/
theorem Carried.retained : Retained db := by
  refine ⟨fun account hacc => ?_,fun account hacc => ?_,?_,?_⟩
  · obtain ⟨credit,hcre,hid,hbal⟩ := h.credit hacc
    rw [hbal,← h.balances credit hcre,hid]
    refine (h.sum_eq fun tx row himp => ⟨?_,himp.delta.symm⟩).symm
    simp only [h.account_iff himp hcre]
  · obtain ⟨credit,hcre,hid,hbal⟩ := h.credit hacc
    rw [hbal,hid,h.held_eq hcre]
    exact h.covered credit hcre
  · intro first hfst second hsec hfir hseco orderId hfirs hsecondOrder
    have heq := h.holds (unlinked first) (mem_map_of_mem hfst) (unlinked second)
      (mem_map_of_mem hsec) hfir hseco orderId hfirs hsecondOrder
    have hid : (unlinked first).id=(unlinked second).id := congrArg CreditTransaction.id heq
    exact eq_of_key_eq CreditTransaction.id h.entryIds hfst hsec hid
  · intro entry hent relatedId hrel
    obtain ⟨tx,-,himp⟩ := h.origin hent
    rw [himp.related] at hrel
    obtain ⟨sourceId,hsou,hid⟩ := Option.map_eq_some_iff.mp hrel
    obtain ⟨other,hot,hoth,hacc⟩ := himp.linked sourceId hsou
    obtain ⟨row,hrow,hrowI⟩ := h.stored hot
    refine ⟨row,hrow,?_,?_⟩
    · rw [hrowI.id,hoth,hid]
    · rw [hrowI.account,hacc,himp.account]

theorem Carried.restored_eq
    {redemption : SourceCreditTransaction} (hred : redemption∈transactions) :
    restoredSum db (ctx.id "account-credit-transaction" redemption.id) =
      sourceRestored transactions redemption.id := by
  refine h.sum_eq fun tx row himp => ⟨?_,himp.amount.symm⟩
  have hkd : row.kind=.restore ↔ tx.kind = "RESTORE" := himp.kind_iff (by decide)
  have hsta : row.status=.posted ↔ tx.status = "POSTED" := himp.status_iff (by decide)
  have hlnk : row.relatedTransactionId=some (ctx.id "account-credit-transaction" redemption.id) ↔
        tx.relatedTransactionId=some redemption.id := by
    rw [himp.related]
    constructor
    · intro heq
      obtain ⟨sourceId,hsou,hid⟩ := Option.map_eq_some_iff.mp heq
      obtain ⟨other,hot,hoth,-⟩ := himp.linked sourceId hsou
      rw [← hoth] at hid
      rw [hsou,← hoth,h.transaction_eq hot hred hid]
    · intro heq
      rw [heq]
      rfl
  simp only [hkd,hsta,hlnk]

/-- A source with the relations of the service gives a ledger with them. -/
theorem Carried.established
    (hids : Set.InjOn (ctx.id "order") {orderId | ∃ tx∈transactions, tx.orderId=some orderId})
    (hcoh : Coherent credits transactions) : Established db := by
  refine ⟨fun account hacc => ?_,h.retained.held,h.retained.holds,?_,?_,?_⟩
  · obtain ⟨credit,hcre,hid,hbal⟩ := h.credit hacc
    rw [hbal,← h.balances credit hcre,deltaTotal_eq,hcoh.unposted credit hcre,add_zero,hid]
    refine (h.sum_eq fun tx row himp => ⟨?_,himp.delta.symm⟩).symm
    have hsta : row.status=.posted ↔ tx.status = "POSTED" := himp.status_iff (by decide)
    simp only [h.account_iff himp hcre,hsta]
  · intro first hfst second hsec hfirs hsecondRedeem orderId hfir hseco
    obtain ⟨tx,htx,himp⟩ := h.origin hfst
    obtain ⟨other,hot,hoth⟩ := h.origin hsec
    obtain ⟨hkd,hsta⟩ := of_decide_eq_true hfirs
    obtain ⟨hotherKind,hotherStatus⟩ := of_decide_eq_true hsecondRedeem
    obtain ⟨sourceId,hsou,hid⟩ := himp.order_some hfir
    obtain ⟨otherId,hothe,hotherOrder⟩ := hoth.order_some hseco
    have heq : sourceId=otherId :=
      hids ⟨tx,htx,hsou⟩ ⟨other,hot,hothe⟩ (hid.symm.trans hotherOrder)
    have hone : tx=other := hcoh.redemptions tx htx other hot
      ((himp.kind_iff (by decide)).mp hkd) ((himp.status_iff (by decide)).mp hsta)
      ((hoth.kind_iff (by decide)).mp hotherKind)
      ((hoth.status_iff (by decide)).mp hotherStatus) sourceId hsou
      (heq ▸ hothe)
    exact h.row_eq hfst hsec himp (hone ▸ hoth)
  · intro entry hent hkd hsta orderId hord
    obtain ⟨tx,htx,himp⟩ := h.origin hent
    obtain ⟨sourceId,hsou,-⟩ := himp.order_some hord
    obtain ⟨redemption,hred,hlnk,hrede,hacc,hredemptionOrder⟩ :=
      hcoh.restorations tx htx ((himp.kind_iff (by decide)).mp hkd)
        ((himp.status_iff (by decide)).mp hsta) sourceId hsou
    obtain ⟨row,hrow,hrowI⟩ := h.stored hred
    refine ⟨row,hrow,?_,(hrowI.kind_iff (by decide)).mpr hrede,?_,?_⟩
    · rw [himp.related,hlnk,hrowI.id]
      rfl
    · rw [hrowI.account,hacc,himp.account]
    · rw [hrowI.order_eq himp (hredemptionOrder.trans hsou.symm)]
      exact hord
  · intro redemption hred hkd hope
    obtain ⟨tx,htx,himp⟩ := h.origin hred
    rw [himp.id,h.restored_eq htx,himp.amount]
    exact hcoh.restored tx htx ((himp.kind_iff (by decide)).mp hkd) (himp.allocation hope)

end

end Carrying

/-- An import without blocking reports keeps the totals, the coverage of holds,
the single hold of an order and the accounts of links; and it establishes the
ledger invariant of the service whenever the source rows are coherent. -/
theorem credit_import_retains {accounts : BuiltAccounts} {built : BuiltTransactions}
    (hids : Set.InjOn (ctx.id "order") {orderId | ∃ tx∈transactions, tx.orderId=some orderId})
    (haccounts : buildCreditAccounts ctx credits promotions=.ok accounts)
    (htransactions : buildCreditTransactions ctx credits transactions source target=.ok built)
    (hblocking : ∀ exclusion∈accounts.exclusions++built.exclusions, exclusion.blocking=false)
    (hstored : storeCredits accounts.accountRows built.rows=.ok db) :
    Retained db∧(Coherent credits transactions → Established db) := by
  have hcar : Carried ctx source target credits transactions db :=
    carried_of_import haccounts htransactions
      (fun exclusion hexc => hblocking exclusion (mem_append_right _ hexc)) hstored
  exact ⟨hcar.retained,hcar.established hids⟩

/-- Context whose identifiers are the source identifiers under their entity. -/
def sampleContext : ImportContext where
  storeId := "store"
  sourceKey := "vendure"
  channelId := 1
  currency := "EUR"
  id := fun entity sourceId => entity ++ ":" ++ sourceId
  promotionSequence := none
  toLowerCase := id
  digest := fun _ => ""

/-- Actions of a credit promotion. -/
def sampleActions : Json := .arr [.obj [("code",.str "account_credit_discount")]]

/-- Conditions of a credit promotion. -/
def sampleConditions : Json := .arr []

/-- A deleted credit promotion. -/
def samplePromotion : SourceCreditPromotion :=
  ⟨"7",some "CREDIT",true,some "2020-04-01",none,none,0,
    stringify sampleConditions,stringify sampleActions, ""⟩

/-- A source account of ten issued euros. -/
def sampleCredit (balance : ℤ) : SourceCredit :=
  ⟨"1", "7", "1", "ada@shop", "issue", "EUR",1000,balance,false⟩

/-- Imported accounts of the sample. -/
def sampleAccounts (balance : ℤ) : BuiltAccounts where
  promotionRows := [⟨"promotion:7", "CREDIT",none,none,none,0,false⟩]
  accountRows := [accountRow sampleContext (sampleCredit balance) samplePromotion]
  exclusions := []
  promoIds := ["7"]
  codes := ["CREDIT"]
  issuance := ["issue"]

theorem samplePromotion_semantics :
    check (creditActions samplePromotion.actions&&creditConditions samplePromotion.conditions)
      "Unsupported source credit promotion semantics" = .ok () := by
  have hact : creditActions samplePromotion.actions=true := by
    have hpla : Plain sampleActions := by
      refine .arr fun item hite => ?_
      rw [mem_singleton.mp hite]
      refine .obj (by decide) fun member hmem => ?_
      rw [mem_singleton.mp hmem]
      exact .str _
    unfold creditActions samplePromotion
    rw [parse_stringify hpla]
    rfl
  have hcon : creditConditions samplePromotion.conditions=true := by
    unfold creditConditions samplePromotion
    rfl
  rw [hact,hcon]
  rfl

/-- The sample accounts are imported without a report. -/
theorem sampleAccounts_built (balance : ℤ) (hbal : positiveCents balance=true) :
    buildCreditAccounts sampleContext [sampleCredit balance] [samplePromotion] =
      .ok (sampleAccounts balance) := by
  have hstep : buildCreditAccount sampleContext [samplePromotion] ⟨[],[],[],[],[],[]⟩
      (sampleCredit balance)=.ok (sampleAccounts balance) := by
    unfold buildCreditAccount
    have hfd : rowOf SourceCreditPromotion.id [samplePromotion] (sampleCredit balance).promotionId =
        some samplePromotion := rfl
    have hcen : positiveCents (sampleCredit balance).balance=true := hbal
    rw [hfd]
    dsimp only
    rw [samplePromotion_semantics,hcen]
    rfl
  unfold buildCreditAccounts
  rw [foldlM_cons,hstep]
  rfl

/-- Allocation of one euro to one unit. -/
def sampleAllocation : Json := .obj [("40",.arr [.num 100])]

/-- The allocation of the sample as cents by source line. -/
theorem sampleAllocation_parsed :
    parseCreditAllocation (some (stringify sampleAllocation)) =
      .ok (some [("40",[100])]) := by
  have hpla : Plain sampleAllocation := by
    refine .obj (by decide) fun member hmem => ?_
    rw [mem_singleton.mp hmem]
    refine .arr fun item hite => ?_
    rw [mem_singleton.mp hite]
    exact .num _
  unfold parseCreditAllocation
  simp only [parse_stringify hpla]
  rfl

/-- A source entry without order. -/
def sampleEntry (id kind status : String) (amount delta : ℤ) : SourceCreditTransaction :=
  ⟨id, "1",kind,status,amount,delta,none,none,id,none,none,none,none,none,none,none,
    none⟩

def sampleOrderEntry (id kind : String) (amount delta : ℤ) (related allocation : Option String) :
    SourceCreditTransaction :=
  ⟨id, "1",kind, "POSTED",amount,delta,none,related,id,none,none,some "5",none,none,
    none,none,allocation⟩

/-- A redemption of one euro for the sample order. -/
def sampleRedemption (id : String) : SourceCreditTransaction :=
  sampleOrderEntry id "REDEEM" 100 (-100) none (some (stringify sampleAllocation))

/-- A source with one order of one line. -/
def sampleSource : CreditSourceGraph := ⟨[("5",⟨true,true⟩)],[("40",some "5")],[]⟩

/-- The order and its line, imported. -/
def sampleTarget : CreditTargetGraph := ⟨[("order:5",⟨"order:5", "store",some "EUR",none⟩)],
    [("order-line:40",⟨"order-line:40", "store", "order:5"⟩)],[]⟩

def sampleRow (id : String) (kind : CreditKind) (status : CreditStatus) (amount delta : ℤ)
    (order : Option String) (related : Option String) (text : Option String)
    (operational : Option Allocation) : CreditTransaction :=
  {blankEntry ("account-credit-transaction:" ++ id) "account-credit:1" kind status amount delta id
    with
      orderId := order
      relatedTransactionId := related
      allocation := text
      operationalAllocation := operational}

def sampleRedemptionRow (id : String) : CreditTransaction :=
  sampleRow id .redeem .posted 100 (-100) (some "order:5") none
    (some (stringify sampleAllocation)) (some (Record.single "order-line:40" [100]))

/-- A sample redemption is imported with its operational allocation. -/
theorem sampleRedemption_built (id : String) (credit : SourceCredit)
    (transactions : List SourceCreditTransaction) (hcre : credit.id = "1") :
    buildCreditTransaction sampleContext [credit] transactions sampleSource sampleTarget
      (sampleRedemption id)=.ok (sampleRedemptionRow id,[]) := by
  have hfd : rowOf SourceCredit.id [credit] (sampleRedemption id).accountCreditId =
      some credit := by
    unfold rowOf
    rw [reverse_singleton,find?_cons,hcre]
    rfl
  have hpar : parseCreditAllocation (sampleRedemption id).allocation =
      .ok (some [("40",[100])]) := sampleAllocation_parsed
  unfold buildCreditTransaction
  rw [hfd,hpar]
  rfl

/-- A history whose rows are related as the service expects: an issue, a
redemption and a partial restoration. -/
def restoredHistory : List SourceCreditTransaction :=
  [sampleEntry "10" "ISSUE" "POSTED" 1000 1000,sampleRedemption "11",
    sampleOrderEntry "12" "RESTORE" 40 40 (some "11") none]

/-- Rows of that history. -/
def restoredRows : List CreditTransaction :=
  [sampleRow "10" .issue .posted 1000 1000 none none none none,sampleRedemptionRow "11",
    sampleRow "12" .restore .posted 40 40 (some "order:5")
      (some "account-credit-transaction:11") none none]

/-- Two redemptions of one order, a restoration beyond its redemption, one
without a redemption and a void entry that still counts. -/
def brokenHistory : List SourceCreditTransaction :=
  [sampleEntry "10" "ISSUE" "POSTED" 1000 1000,sampleRedemption "11",sampleRedemption "12",
    sampleOrderEntry "13" "RESTORE" 150 150 (some "11") none,
    sampleOrderEntry "14" "RESTORE" 50 50 none none,sampleEntry "15" "ADJUST" "VOID" 100 (-100)]

/-- Rows of that history. -/
def brokenRows : List CreditTransaction :=
  [sampleRow "10" .issue .posted 1000 1000 none none none none,sampleRedemptionRow "11",
    sampleRedemptionRow "12",
    sampleRow "13" .restore .posted 150 150 (some "order:5")
      (some "account-credit-transaction:11") none none,
    sampleRow "14" .restore .posted 50 50 (some "order:5") none none none,
    sampleRow "15" .adjust .void 100 (-100) none none none none]

/-- The coherent history is imported without a report. -/
theorem restoredHistory_built :
    buildCreditTransactions sampleContext [sampleCredit 940] restoredHistory sampleSource
      sampleTarget=.ok ⟨restoredRows,[]⟩ := by
  have hrs : restoredHistory.mapM (buildCreditTransaction sampleContext [sampleCredit 940]
      restoredHistory sampleSource sampleTarget)=.ok (restoredRows.map fun row => (row,[])) :=
    mapM_eq_ok.mpr (.cons rfl (.cons (sampleRedemption_built "11" _ _ rfl) (.cons rfl .nil)))
  have hval : validateCreditHistory [sampleCredit 940] restoredHistory=.ok () := rfl
  unfold buildCreditTransactions
  rw [hval,hrs]
  rfl

/-- The broken history is imported without a report too. -/
theorem brokenHistory_built :
    buildCreditTransactions sampleContext [sampleCredit 900] brokenHistory sampleSource
      sampleTarget=.ok ⟨brokenRows,[]⟩ := by
  have hrs : brokenHistory.mapM (buildCreditTransaction sampleContext [sampleCredit 900]
      brokenHistory sampleSource sampleTarget)=.ok (brokenRows.map fun row => (row,[])) :=
    mapM_eq_ok.mpr (.cons rfl (.cons (sampleRedemption_built "11" _ _ rfl)
      (.cons (sampleRedemption_built "12" _ _ rfl) (.cons rfl (.cons rfl (.cons rfl .nil))))))
  have hval : validateCreditHistory [sampleCredit 900] brokenHistory=.ok () := rfl
  unfold buildCreditTransactions
  rw [hval,hrs]
  rfl

/-- The coherent history gives the ledger invariant of the service. -/
theorem credit_import_retains_sample : Established ⟨(sampleAccounts 940).accountRows,restoredRows⟩ ∧
      Retained ⟨(sampleAccounts 940).accountRows,restoredRows⟩ := by
  have hids : Set.InjOn (sampleContext.id "order")
      {orderId | ∃ tx∈restoredHistory, tx.orderId=some orderId} := by
    intro first _ second _ heq
    exact (String.append_right_inj _).mp heq
  have hsto : storeCredits (sampleAccounts 940).accountRows restoredRows =
      .ok ⟨(sampleAccounts 940).accountRows,restoredRows⟩ := by rfl
  obtain ⟨hret,hest⟩ := credit_import_retains hids
    (sampleAccounts_built 940 (by decide)) restoredHistory_built
    (fun exclusion hno => absurd hno not_mem_nil) hsto
  refine ⟨hest ⟨by decide,?_,?_,?_⟩,hret⟩
  · decide
  · decide
  · decide

/-- A broken source passes without a report and is stored; the ledger then
misses every relation between rows that the service relies on. -/
theorem credit_import_breaks_relations :
    buildCreditAccounts sampleContext [sampleCredit 900] [samplePromotion] =
        .ok (sampleAccounts 900)∧(sampleAccounts 900).exclusions=[] ∧
      buildCreditTransactions sampleContext [sampleCredit 900] brokenHistory sampleSource
        sampleTarget=.ok ⟨brokenRows,[]⟩ ∧
      storeCredits (sampleAccounts 900).accountRows brokenRows =
        .ok ⟨(sampleAccounts 900).accountRows,brokenRows⟩ ∧
      ¬ Established ⟨(sampleAccounts 900).accountRows,brokenRows⟩ ∧
      postedSum ⟨(sampleAccounts 900).accountRows,brokenRows⟩ "account-credit:1" = 1000 ∧
      restoredSum ⟨(sampleAccounts 900).accountRows,brokenRows⟩
        "account-credit-transaction:11" = 150 ∧
      brokenRows.countP isRedemption=2 ∧
      (∃ row∈brokenRows, row.kind=.restore∧row.status=.posted ∧
        row.orderId=some "order:5" ∧ row.relatedTransactionId=none) := by
  have hpos : postedSum ⟨(sampleAccounts 900).accountRows,brokenRows⟩
      "account-credit:1" = 1000 := by decide
  refine ⟨sampleAccounts_built 900 (by decide),rfl,brokenHistory_built,rfl,
    fun hest => ?_,hpos,by decide,by decide,by decide⟩
  have hbal := hest.posted _ mem_cons_self
  have hval : (900 : ℤ)=1000 := hbal.trans hpos
  exact absurd hval (by decide)

end SellRight.CreditImportSafety
