import SellRight.CreditFundingPlans

/-!
# Runs of funding plans

A run extends the history of one redemption, again and again, with the
postings of an edit plan or of an explicit return. Each planner call keeps
the restorations sound and returns their state, so the reader accepts the
history of every run with exactly the state the last call returned.
-/

namespace SellRight.CreditFundingRuns

open KeyedRecord CreditMath CreditFundingLedger CreditFundingPlanner CreditFundingEnvelope List
  CreditFundingChains CreditFundingPlans

/-- Rows store postings under new ids. -/
structure Stores (history rows : List CreditTransaction)
    (postings : List EditFundingPosting) : Prop where
  stored : Forall₂ StoredAs postings rows
  ids : ((history++rows).map CreditTransaction.id).Nodup

variable {redemption : CreditTransaction}
variable {original : Allocation}

theorem Ledger.extend
    {posted : List (CreditTransaction×Restoration)} {new : List Restoration}
    {rows : List CreditTransaction} (hled : Ledger redemption original posted)
    (hsd : Sound redemption original (posted.map Prod.snd++new))
    (hrs : Stores (posted.map Prod.fst) rows
      (new.map fun restoration => restoration.posting redemption)) :
    Ledger redemption original (posted++rows.zip new) ∧
      (posted++rows.zip new).map Prod.fst=posted.map Prod.fst++rows ∧
      (posted++rows.zip new).map Prod.snd=posted.map Prod.snd++new := by
  have hsto := hrs.stored
  rw [forall₂_map_left_iff] at hsto
  have hlen : new.length=rows.length := hsto.length_eq
  have hfst : (posted++rows.zip new).map Prod.fst=posted.map Prod.fst++rows := by
    rw [map_append,map_fst_zip (by omega)]
  have hsec : (posted++rows.zip new).map Prod.snd=posted.map Prod.snd++new := by
    rw [map_append,map_snd_zip (by omega)]
  refine ⟨⟨?_,?_,hsec ▸ hsd⟩,hfst,hsec⟩
  · intro entry hent
    rcases mem_append.mp hent with hold|hnew
    · exact hled.stored entry hold
    rw [forall₂_iff_zip] at hsto
    have hswa := mem_map_of_mem (f := Prod.swap) hnew
    rw [zip_swap] at hswa
    exact hsto.2 hswa
  · have hids := hrs.ids
    rw [← hfst,map_map] at hids
    exact hids

/-- Histories a redemption can have, with the state the last planner call
returned. -/
inductive FundingRun (runtime : Runtime) (redemption : CreditTransaction) :
    List CreditTransaction → CreditFundingState → Prop
  | start {state : CreditFundingState}
      (hread : readCreditFundingState redemption [] true=.ok state) :
      FundingRun runtime redemption [] state
  | edit {history rows : List CreditTransaction} {state next : CreditFundingState}
      {editId digest : String} {lines : List TargetLine} {committed : Option CommittedEdit}
      {postings : List EditFundingPosting} {allocation : Allocation}
      (hrun : FundingRun runtime redemption history state)
      (hplan : planEditCreditFunding runtime redemption history true editId lines committed =
        .ok (.planned digest postings allocation next))
      (hrows : Stores history rows postings) :
      FundingRun runtime redemption (history++rows) next
  /-- The posting of an accepted return, if it has one, under a new key. -/
  | unitReturn {history rows : List CreditTransaction} {state next : CreditFundingState}
      {operation : Operation} {line : String} {indexes : List (Option Int)}
      {posting : Option EditFundingPosting}
      (hrun : FundingRun runtime redemption history state)
      (hplan : planCreditUnitReturn redemption history true operation line indexes =
        .ok (posting,next))
      (hkey : ∀ entry∈posting, entry.idempotencyKey∉history.map CreditTransaction.idempotencyKey)
      (hrows : Stores history rows posting.toList) :
      FundingRun runtime redemption (history++rows) next

theorem ledger_nil
    (hfac : Redeemed redemption original) : Ledger redemption original [] := by
  have hcha : ∀ line n, chainOf (edgesOf []) line n=[] := fun _ _ => rfl
  have hrem : remainingOf (edgesOf []) original=original := by
    refine Record.eq_of_get (by simp [remainingOf]) ?_
    intro line _
    rw [remainingOf,Record.get_mapValues]
    cases original.get line with
    | none => rfl
    | some =>
      simp only [Option.map_some,Option.some.injEq,settledUnits,hcha]
      apply ext_getElem (by simp)
      simp [currentOf]
  refine ⟨by simp,by simp,⟨by simp,by simp,by simp,?_,?_⟩⟩
  · intro line units hun n hn
    exact .nil (hfac.cents line units hun _ (getElem_mem hn))
  · change (0 : Int)+((remainingOf (edgesOf []) original).entries.flatMap Prod.snd).sum=_
    rw [hrem,hfac.total,zero_add]

/-- Every run keeps a ledger whose state is the one last returned. -/
theorem FundingRun.ledger {runtime : Runtime}
    (hsha : ∀ text, isDigest (runtime.sha256 text)=true) {history : List CreditTransaction}
    {state : CreditFundingState} (hrun : FundingRun runtime redemption history state) :
    ∃ orderId original posted, readRedemption redemption=.ok (orderId,original) ∧
      Ledger redemption original posted∧posted.map Prod.fst=history ∧
      state=stateOf redemption original (posted.map Prod.snd) := by
  induction hrun with
  | @start state hrd =>
    cases hred : readRedemption redemption with
    | error =>
      rw [readCreditFundingState,readState,hred] at hrd
      cases hrd
    | ok result =>
      obtain ⟨orderId,original⟩ := result
      have hled := ledger_nil (readRedemption_spec hred)
      have hst := readState_ledger hred hled
      rw [map_nil] at hst
      rw [readCreditFundingState,hst] at hrd
      exact ⟨orderId,original,[],rfl,hled,rfl,(Except.ok.inj hrd).symm⟩
  | edit _ hpl hrs ih =>
    obtain ⟨orderId,original,posted,hrd,hled,rfl,-⟩ := ih
    obtain ⟨new,rfl,hsd,rfl⟩ := planEdit_ledger hrd hled hsha hpl
    obtain ⟨hext,hfst,hsec⟩ := Ledger.extend hled hsd hrs
    exact ⟨orderId,original,_,hrd,hext,hfst,by rw [hsec]⟩
  | unitReturn _ hpl hkey hrs ih =>
    obtain ⟨orderId,original,posted,hrd,hled,rfl,-⟩ := ih
    obtain ⟨new,hpos,hsd,rfl⟩ := planReturn_ledger hrd hled hpl hkey
    rw [hpos] at hrs
    obtain ⟨hext,hfst,hsec⟩ := Ledger.extend hled hsd hrs
    exact ⟨orderId,original,_,hrd,hext,hfst,by rw [hsec]⟩

/-- The reader accepts the history of every run and returns the state the last
planner call returned; restored and retained cents make up the redemption. -/
theorem funding_runs_read_back {runtime : Runtime} {redemption : CreditTransaction}
    (hsha : ∀ text, isDigest (runtime.sha256 text)=true) {history : List CreditTransaction}
    {state : CreditFundingState} (hrun : FundingRun runtime redemption history state) :
    readCreditFundingState redemption history true=.ok state ∧
      state.restored+state.retained=state.redeemed∧state.redeemed=redemption.amount := by
  obtain ⟨orderId,original,posted,hrd,hled,rfl,rfl⟩ := hrun.ledger hsha
  refine ⟨?_,hled.sound.conserved,rfl⟩
  rw [readCreditFundingState,readState_ledger hrd hled]
  rfl

/-- A runtime whose digest is that of the sample edit's request. -/
def sampleRuntime : Runtime where
  sha256 := fun _ => "0bed6591cb928dd57dda2e8eba7ed43bbf53c7de816172c8ceb549fe65ad2c51"
  localeLe := fun a b => decide (a≤b)

/-- A UUID of one repeated digit. -/
def sampleUuid (c : Char) : String :=
  String.ofList (replicate 8 c++['-']++replicate 4 c++['-']++replicate 4 c ++
    ['-']++replicate 4 c++['-']++replicate 12 c)

/-- A redemption of ten cents on two lines. -/
def sampleRedemption : CreditTransaction where
  id := sampleUuid '1'
  accountCreditId := sampleUuid '2'
  kind := .redeem
  status := .posted
  amount := 10
  delta := -10
  balanceAfter := some 0
  relatedTransactionId := none
  idempotencyKey := "redeem:hold"
  reason := some "Payment settled"
  actor := none
  orderId := some (sampleUuid '3')
  orderCode := none
  refundId := none
  orderLineId := none
  quantity := none
  allocation := none
  operationalAllocation := some ⟨[(sampleUuid 'a',[4,0]),(sampleUuid 'b',[6])],by decide⟩

def storedRow (id : String) (posting : EditFundingPosting) : CreditTransaction where
  id := id
  accountCreditId := posting.accountCreditId
  kind := posting.kind
  status := posting.status
  amount := posting.amount
  delta := posting.delta
  balanceAfter := none
  relatedTransactionId := some posting.relatedTransactionId
  idempotencyKey := posting.idempotencyKey
  reason := none
  actor := none
  orderId := some posting.orderId
  orderCode := none
  refundId := posting.refundId
  orderLineId := some posting.orderLineId
  quantity := some posting.quantity
  allocation := some posting.allocation
  operationalAllocation := some posting.operationalAllocation

/-- A correction of the first unit from four cents to three. -/
def sampleCorrection : Restoration :=
  ⟨.edit .unitCorrection (sampleUuid '9') (sampleRuntime.sha256 ""),sampleUuid 'a',[⟨0,4,3⟩]⟩

/-- The return of the only unit of the second line. -/
def sampleRemoval : Restoration :=
  ⟨.edit .quantityReturn (sampleUuid '9') (sampleRuntime.sha256 ""),sampleUuid 'b',[⟨0,6,0⟩]⟩

/-- Target lines of the edit. -/
def sampleLines : List TargetLine := [⟨sampleUuid 'a',[⟨some 0,3,none,none⟩,⟨some 1,0,none,none⟩]⟩]

/-- Rows of an edit that corrects one line and removes the other. -/
def sampleHistory : List CreditTransaction :=
  [storedRow "row-1" (sampleCorrection.posting sampleRedemption),
    storedRow "row-2" (sampleRemoval.posting sampleRedemption)]

theorem storedRow_storedAs {id : String} (hid : id ≠ "") (posting : EditFundingPosting) :
    StoredAs posting (storedRow id posting) :=
  ⟨rfl,rfl,rfl,rfl,rfl,rfl,rfl,rfl,rfl,rfl,rfl,rfl,rfl,hid⟩

/-- The reader returns the planned state of the sample edit. -/
theorem funding_runs_read_back_edit : ∃ state,
    readCreditFundingState sampleRedemption sampleHistory true=.ok state ∧
      state.restored=7∧state.retained=3 := by
  have hsta : FundingRun sampleRuntime sampleRedemption [] _ := .start rfl
  have hrs : Stores [] sampleHistory [sampleCorrection.posting sampleRedemption,
      sampleRemoval.posting sampleRedemption] :=
    ⟨.cons (storedRow_storedAs (by decide) _) (.cons (storedRow_storedAs (by decide) _) .nil),
      by decide⟩
  have hpl : planEditCreditFunding sampleRuntime sampleRedemption [] true (sampleUuid '9')
      sampleLines none=.ok (.planned _ [_,_] _ _) := rfl
  have hed : FundingRun sampleRuntime sampleRedemption sampleHistory _ := .edit hsta hpl hrs
  have hsha : ∀ text, isDigest (sampleRuntime.sha256 text)=true := by
    intro text
    change isDigest "0bed6591cb928dd57dda2e8eba7ed43bbf53c7de816172c8ceb549fe65ad2c51" = true
    decide
  obtain ⟨hrd,-,-⟩ := funding_runs_read_back hsha hed
  exact ⟨_,hrd,rfl,rfl⟩

end SellRight.CreditFundingRuns

