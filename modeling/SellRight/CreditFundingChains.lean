import SellRight.CreditFundingEnvelope

/-!
# Chains of unit changes

The edges of one unit, in the order they were posted, form a chain: each edge
starts where the one before it ended, the cents only fall, and nothing
follows a return. Such chains determine the funding state, and a history of
stored restorations with chains in order is accepted by the reader with
exactly that state.
-/

namespace SellRight.CreditFundingChains

open JsonStable KeyedRecord CreditMath CreditFundingLedger CreditFundingEnvelope List
open FallibleSteps (bind_eq_ok foldlM_eq_ok)

def currentOf (cents : Int) (chain : List UnitEdge) : Int :=
  (chain.getLast?.map UnitEdge.after).getD cents

/-- The unit came back on its chain. -/
def returnedOf (chain : List UnitEdge) : Bool :=
  (chain.getLast?.map UnitEdge.quantityReturn).getD false

/-- A chain that reads in posting order. -/
structure InOrder (cents : Int) (chain : List UnitEdge) : Prop where
  descending : chain.Pairwise fun a b => b.before<a.before
  /-- Each edge starts where the last one ended. -/
  follows : followChain chain cents false=.ok (currentOf cents chain,returnedOf chain)
  /-- An open unit has less cents than every edge started with. -/
  below : returnedOf chain=false→∀ edge∈chain, currentOf cents chain<edge.before
  range : 0≤currentOf cents chain∧currentOf cents chain ≤ maxCreditCents

variable {cents : Int} {chain : List UnitEdge} {units : List Int}

/-- An untouched unit has an empty chain in order. -/
theorem InOrder.nil (hcen : 0≤cents∧cents ≤ maxCreditCents) : InOrder cents [] where
  descending := .nil
  follows := rfl
  below := by simp
  range := hcen

theorem followChain_snoc {edge : UnitEdge} {returned : Bool}
    {current : Int} (hfol : followChain chain cents returned=.ok (current,false))
    (hbef : edge.before=current) :
    followChain (chain++[edge]) cents returned=.ok (edge.after,edge.quantityReturn) := by
  induction chain generalizing cents returned with
  | nil =>
    cases hfol
    rw [nil_append,followChain,requireFact_true (by simpa using hbef)]
    rfl
  | cons _ _ ih =>
    rw [followChain,bind_eq_ok] at hfol
    obtain ⟨_,hfst,hrt⟩ := hfol
    rw [cons_append,followChain,hfst]
    exact ih hrt

/-- A change of an open unit extends its chain. -/
theorem InOrder.snoc {edge : UnitEdge} (hord : InOrder cents chain) (hop : returnedOf chain=false)
    (hbef : edge.before=currentOf cents chain) (haft : 0≤edge.after) (hfal : edge.after≤edge.before)
    (hcau : edge.quantityReturn=false→edge.after<edge.before) : InOrder cents (chain++[edge]) := by
  have hcur : currentOf cents (chain++[edge])=edge.after := by simp [currentOf]
  have hret : returnedOf (chain++[edge])=edge.quantityReturn := by simp [returnedOf]
  have hbel := hord.below hop
  have hran := hord.range
  refine ⟨?_,?_,?_,?_⟩
  · rw [pairwise_append]
    refine ⟨hord.descending,pairwise_singleton _ _,?_⟩
    intro a ha b hb
    rw [mem_singleton.mp hb,hbef]
    exact hbel a ha
  · rw [hcur,hret]
    exact followChain_snoc (hop ▸ hord.follows) hbef
  · intro hsti other hot
    rw [hret] at hsti
    rw [hcur]
    have hlt := hcau hsti
    rcases mem_append.mp hot with hold|hnew
    · have hpre := hbel other hold
      omega
    · rwa [mem_singleton.mp hnew]
  · omega

theorem InOrder.sort_eq (hord : InOrder cents chain) :
    chain.insertionSort (fun a b => edgeOrder a b)=chain := by
  apply Pairwise.insertionSort_eq
  refine hord.descending.imp ?_
  intro a b hlt
  simp [edgeOrder,hlt]

section Settling

variable (transitions : List ((String×ℕ)×UnitEdge)) (line : String)

/-- Units of a line with the first `n` settled. -/
def settledUnits (units : List Int) (n : ℕ) : List Int := units.mapIdx fun index cents =>
    if index<n then currentOf cents (chainOf transitions line index) else cents

/-- Returned units among the first `n`. -/
def settledReturned (n : ℕ) : List ℕ :=
  (range n).filter fun index => returnedOf (chainOf transitions line index)

theorem settleUnit_eq {n : ℕ} (hn : n<units.length)
    (hord : InOrder units[n] (chainOf transitions line n)) (vectors : Vectors) :
    settleUnit transitions line
        ⟨vectors.remaining.update line fun _ => settledUnits transitions line units n,
          vectors.returnedIndexes.update line fun _ => settledReturned transitions line n⟩
        (units[n],n) =
      .ok ⟨vectors.remaining.update line fun _ => settledUnits transitions line units (n+1),
        vectors.returnedIndexes.update line fun _ => settledReturned transitions line (n+1)⟩ := by
  have hun : (if (chainOf transitions line n).isEmpty then
        vectors.remaining.update line fun _ => settledUnits transitions line units n
      else (vectors.remaining.update line fun _ => settledUnits transitions line units n).update line
        fun cents => cents.set n (currentOf units[n] (chainOf transitions line n))) =
      vectors.remaining.update line fun _ => settledUnits transitions line units (n+1) := by
    have hset : (settledUnits transitions line units n).set n
        (currentOf units[n] (chainOf transitions line n)) =
          settledUnits transitions line units (n+1) := by
      apply ext_getElem (by simp [settledUnits])
      intro index hind hind'
      by_cases hsam : n=index
      · subst hsam
        simp [settledUnits]
      · have hiff : index<n ↔ index<n+1 := by omega
        simp [settledUnits,hsam,hiff]
    split
    · next hem =>
      have hcha : chainOf transitions line n=[] := by simpa using hem
      have hsam : settledUnits transitions line units (n+1) =
          settledUnits transitions line units n := by
        rw [← hset,hcha]
        apply ext_getElem (by simp)
        intro index hind hind'
        rw [getElem_set]
        split
        · next heq =>
          subst heq
          simp [settledUnits,currentOf]
        · rfl
      rw [hsam]
    · rw [Record.update_update,hset]
  have hret : (if returnedOf (chainOf transitions line n) then
        (vectors.returnedIndexes.update line fun _ => settledReturned transitions line n).update line
          fun indexes => indexes++[n]
      else vectors.returnedIndexes.update line fun _ => settledReturned transitions line n) =
      vectors.returnedIndexes.update line fun _ => settledReturned transitions line (n+1) := by
    have hsuc : settledReturned transitions line (n+1)=settledReturned transitions line n ++
        if returnedOf (chainOf transitions line n) then [n] else [] := by
      by_cases hbk : returnedOf (chainOf transitions line n)=true <;>
        simp [settledReturned,range_succ,filter_append,hbk]
    by_cases hbk : returnedOf (chainOf transitions line n)=true
    · rw [if_pos hbk,Record.update_update,hsuc,if_pos hbk]
    · rw [if_neg hbk,hsuc,if_neg hbk,append_nil]
  rw [settleUnit]
  simp only [hord.sort_eq,hord.follows,bind,Except.bind,hun,hret]
  rfl

/-- The next entry of an indexed list. -/
theorem zipIdx_split {done rest : List (Int×ℕ)} {item : Int×ℕ}
    (hspl : units.zipIdx=done++item::rest) :
    ∃ hn : done.length<units.length, item=(units[done.length],done.length) := by
  have hlen := congrArg length hspl
  simp only [length_zipIdx,length_append,length_cons] at hlen
  have hn : done.length<units.length := by omega
  refine ⟨hn,?_⟩
  have hite : units.zipIdx[done.length]?=some item := by
    rw [hspl]
    simp
  simpa [getElem?_zipIdx,getElem?_eq_getElem hn] using hite.symm

theorem settleLine_eq {vectors : Vectors}
    (hun : vectors.remaining.get line=some units) (hfre : vectors.returnedIndexes.get line=some [])
    (hord : ∀ (n : ℕ) (hn : n<units.length), InOrder units[n] (chainOf transitions line n)) :
    settleLine transitions vectors (line,units) =
      .ok ⟨vectors.remaining.update line fun _ => settledUnits transitions line units units.length,
        vectors.returnedIndexes.update line fun _ =>
          settledReturned transitions line units.length⟩ := by
  have hsta : (⟨vectors.remaining.update line fun _ => settledUnits transitions line units 0,
      vectors.returnedIndexes.update line fun _ => settledReturned transitions line 0⟩ : Vectors) =
        vectors := by
    have hz : settledUnits transitions line units 0=units := by simp [settledUnits,mapIdx_eq_iff]
    have hno : settledReturned transitions line 0=[] := by simp [settledReturned]
    rw [hz,hno,Record.update_self hun,Record.update_self hfre]
  let state : List (Int×ℕ) → Vectors := fun done =>
    ⟨vectors.remaining.update line fun _ => settledUnits transitions line units done.length,
      vectors.returnedIndexes.update line fun _ => settledReturned transitions line done.length⟩
  have hfol : units.zipIdx.foldlM (settleUnit transitions line) (state []) =
      .ok (state units.zipIdx) := by
    apply foldlM_eq_ok
    intro done item rest hspl
    obtain ⟨hn,rfl⟩ := zipIdx_split hspl
    rw [settleUnit_eq transitions line hn (hord _ hn) vectors]
    simp [state]
  simp only [state,length_nil,hsta,length_zipIdx] at hfol
  exact hfol

/-- Cents left on every unit after its chain. -/
def remainingOf (original : Allocation) : Allocation :=
  original.mapValues fun line units => settledUnits transitions line units units.length

def returnedIn (original : Allocation) : Record String (List ℕ) :=
  original.mapValues fun line units => settledReturned transitions line units.length

theorem settleLines_eq {original : Allocation} (hord : ∀ line units, original.get line=some units →
      ∀ (n : ℕ) (hn : n<units.length), InOrder units[n] (chainOf transitions line n)) :
    original.entries.foldlM (settleLine transitions) (startVectors original) =
      .ok ⟨remainingOf transitions original,returnedIn transitions original⟩ := by
  let state : List (String×List Int) → Vectors := fun done =>
    ⟨original.mapValues fun line units =>
        if line∈keys done then settledUnits transitions line units units.length else units,
      original.mapValues fun line units =>
        if line∈keys done then settledReturned transitions line units.length else []⟩
  have hfol : original.entries.foldlM (settleLine transitions) (state []) =
      .ok (state original.entries) := by
    apply foldlM_eq_ok
    intro done item rest hspl
    obtain ⟨line,units⟩ := item
    have hmem : (line,units)∈original.entries := by simp [hspl]
    have hrd := Record.get_of_mem hmem
    have hnew : line∉keys done := by
      have hdis := original.distinct
      rw [hspl] at hdis
      simp only [KeyedRecord.keys,map_append,map_cons,nodup_append] at hdis
      intro hold
      exact hdis.2.2 line hold line (by simp) rfl
    have hun : (state done).remaining.get line=some units := by
      simp only [state,Record.get_mapValues,hrd,Option.map_some,if_neg hnew]
    have hfre : (state done).returnedIndexes.get line=some [] := by
      simp only [state,Record.get_mapValues,hrd,Option.map_some,if_neg hnew]
    rw [settleLine_eq transitions line hun hfre (hord line units hrd)]
    have hks : ∀ other, other∈keys (done++[(line,units)]) ↔ other∈keys done∨other=line := by
      simp [KeyedRecord.keys]
    congr 2
    all_goals
      refine Record.eq_of_get (by simp [state]) ?_
      intro other _
      simp only [state,Record.get_update,Record.get_mapValues,hks]
      by_cases hot : other=line
      · subst hot
        simp [hrd,hnew]
      · simp [hot]
  have hsta : state []=startVectors original := by
    have hid : original.mapValues (fun _ units => units)=original := by
      refine Record.eq_of_get (by simp) ?_
      simp [Record.get_mapValues]
    simp [state,startVectors,KeyedRecord.keys,hid]
  have hfin : state original.entries =
      ⟨remainingOf transitions original,returnedIn transitions original⟩ := by
    simp only [state,remainingOf,returnedIn]
    congr 1
    all_goals
      refine Record.eq_of_get (by simp) ?_
      intro other hot
      simp only [Record.keys_mapValues] at hot
      simp [Record.get_mapValues,hot]
  rw [hsta,hfin] at hfol
  exact hfol

end Settling

/-- Edges of restorations in posting order. -/
def edgesOf (restorations : List Restoration) : List ((String×ℕ)×UnitEdge) :=
  restorations.flatMap Restoration.edges

/-- Restorations of one edit carry one digest. -/
def SameDigest (first second : Restoration) : Prop :=
  ∀ cause other editId digest digest', first.provenance=.edit cause editId digest →
    second.provenance=.edit other editId digest'→digest=digest'

/-- Fitting restorations with chains in order and no cent lost. -/
structure Sound (redemption : CreditTransaction) (original : Allocation)
    (restorations : List Restoration) : Prop where
  fits : ∀ restoration∈restorations, Fits original restoration
  keys : (restorations.map fun restoration => restoration.key redemption).Nodup
  digests : ∀ first∈restorations, ∀ second∈restorations, SameDigest first second
  chains : ∀ line units, original.get line=some units →
    ∀ (n : ℕ) (hn : n<units.length), InOrder units[n] (chainOf (edgesOf restorations) line n)
  /-- Restored and remaining cents make up the redemption. -/
  conserved : (restorations.map fun restoration => restoration.cents.sum).sum +
    ((remainingOf (edgesOf restorations) original).entries.flatMap Prod.snd).sum=redemption.amount

/-- Rows that store sound restorations under distinct ids. -/
structure Ledger (redemption : CreditTransaction) (original : Allocation)
    (posted : List (CreditTransaction×Restoration)) : Prop where
  stored : ∀ entry∈posted, StoredAs (entry.2.posting redemption) entry.1
  ids : (posted.map fun entry => entry.1.id).Nodup
  sound : Sound redemption original (posted.map Prod.snd)

/-- Facts of an accepted redemption. -/
structure Redeemed (redemption : CreditTransaction) (original : Allocation) : Prop where
  order : redemption.orderId.isSome
  amount : 0≤redemption.amount∧redemption.amount ≤ maxCreditCents
  line : ∀ line units, original.get line=some units→isUuid line=true
  cents : ∀ line units, original.get line=some units→∀ cents∈units, 0≤cents∧cents ≤ maxCreditCents
  total : (original.entries.flatMap Prod.snd).sum=redemption.amount

/-- An accepted redemption has these facts. -/
theorem readRedemption_spec {redemption : CreditTransaction} {orderId : String}
    {original : Allocation} (hrd : readRedemption redemption=.ok (orderId,original)) :
    Redeemed redemption original := by
  rw [readRedemption] at hrd
  split at hrd
  · next order allocation hord hall =>
    simp only [bind_eq_ok] at hrd
    obtain ⟨_,hhd,_,-,_,hlns,total,htot,_,heq,hrd⟩ := hrd
    cases hrd
    have hhd := requireFact_eq_ok hhd
    have hlns := requireFact_eq_ok hlns
    have heq := requireFact_eq_ok heq
    simp only [Bool.and_eq_true,decide_eq_true_eq,money] at hhd
    simp only [all_eq_true,Bool.and_eq_true,money,decide_eq_true_eq] at hlns
    obtain ⟨rfl,-⟩ := sum_eq_ok htot
    refine ⟨by simp [hord],hhd.1.1.2,?_,?_,by simpa using heq⟩
    · intro line units hget
      exact (hlns _ (Record.mem_of_get hget)).1.1
    · intro line units hget
      exact (hlns _ (Record.mem_of_get hget)).2
  · cases hrd

/-- Digests collected from restorations. -/
def digestsOf (restorations : List Restoration) : Record String String :=
  restorations.foldl noteDigest .empty

variable {restorations : List Restoration}

theorem digestsOf_mem {editId digest : String}
    (hget : (digestsOf restorations).get editId=some digest) :
    ∃ restoration∈restorations, ∃ cause, restoration.provenance=.edit cause editId digest := by
  induction restorations using reverseRecOn with
  | nil => cases hget
  | append_singleton _ last ih =>
    rw [digestsOf,foldl_append,foldl_cons,foldl_nil,← digestsOf,noteDigest] at hget
    cases hpro : last.provenance with
    | edit cause =>
      simp only [hpro,Record.get_set] at hget
      split at hget
      · next heq =>
        subst heq
        exact ⟨last,by simp,cause,by rw [hpro,Option.some.inj hget]⟩
      · obtain ⟨found,hfd,hed⟩ := ih hget
        exact ⟨found,by simp [hfd],hed⟩
    | operation =>
      simp only [hpro] at hget
      obtain ⟨found,hfd,hed⟩ := ih hget
      exact ⟨found,by simp [hfd],hed⟩

section Reading

variable {redemption : CreditTransaction} {original : Allocation}
  {posted : List (CreditTransaction×Restoration)}

/-- Rows with their parsed envelopes. -/
def parsedRows (redemption : CreditTransaction) (posted : List (CreditTransaction×Restoration)) :
    List (CreditTransaction×JsonText.Json) :=
  posted.map fun entry => (entry.1,stable (entry.2.envelope redemption))

section
variable (hled : Ledger redemption original posted)
include hled

theorem Ledger.fits :
    ∀ entry∈posted, Fits original entry.2 :=
  fun entry hent => hled.sound.fits entry.2 (mem_map_of_mem hent)

/-- The first pass accepts a ledger. -/
theorem scan_ledger (hord : redemption.orderId.isSome) :
    (posted.map Prod.fst).foldlM (scanRow redemption original) .empty=.ok {
      ids := posted.map fun entry => entry.1.id
      keys := posted.map fun entry => entry.2.key redemption
      legacy := .empty
      modern := parsedRows redemption posted} := by
  let state : List (CreditTransaction×Restoration) → HistoryScan := fun done => {
    ids := done.map fun entry => entry.1.id
    keys := done.map fun entry => entry.2.key redemption
    legacy := .empty
    modern := parsedRows redemption done}
  rw [foldlM_map]
  refine foldlM_eq_ok state ?_
  intro done entry rest hspl
  have hmem : entry∈posted := by simp [hspl]
  have hids := hled.ids
  have hks := hled.sound.keys
  rw [hspl] at hids hks
  simp only [map_append,map_cons,nodup_append,map_map] at hids hks
  have hid : entry.1.id∉(state done).ids := fun hold => hids.2.2 _ hold _ (by simp) rfl
  have hkey : entry.2.key redemption∉(state done).keys :=
    fun hold => hks.2.2 _ hold _ (by simp) rfl
  rw [scanRow_stored (hled.stored entry hmem) (hled.fits entry hmem) hord hid hkey]
  simp [state,parsedRows]

/-- The second pass accepts a ledger. -/
theorem modern_ledger :
    (parsedRows redemption posted).foldlM
        (readModern redemption original (startVectors original)) .empty =
      .ok ⟨edgesOf (posted.map Prod.snd),digestsOf (posted.map Prod.snd)⟩ := by
  let state : List (CreditTransaction×Restoration) → ModernScan := fun done =>
    ⟨edgesOf (done.map Prod.snd),digestsOf (done.map Prod.snd)⟩
  rw [parsedRows,foldlM_map]
  refine foldlM_eq_ok state ?_
  intro done entry rest hspl
  have hmem : entry∈posted := by simp [hspl]
  have hfre : ((startVectors original).returnedIndexes.get entry.2.line).getD []=[] := by
    rw [startVectors,Record.get_mapValues]
    cases original.get entry.2.line <;> rfl
  have hdig : DigestKnown (state done).editDigests entry.2 := by
    rw [DigestKnown]
    split
    · next cause editId digest hpro =>
      cases hget : (digestsOf (done.map Prod.snd)).get editId with
      | none => exact .inl rfl
      | some known =>
        obtain ⟨other,hot,cause',hed⟩ := digestsOf_mem hget
        have hkn : other∈posted.map Prod.snd := by
          rw [hspl,map_append]
          exact mem_append_left _ hot
        have heq := hled.sound.digests other hkn entry.2 (mem_map_of_mem hmem) cause'
          cause editId known digest hed hpro
        exact .inr (congrArg some heq)
    · trivial
  rw [readModern_stored (hled.stored entry hmem) (hled.fits entry hmem) hfre hdig]
  simp [state,edgesOf,digestsOf]

end

theorem sortIndexes_returnedIn (transitions : List ((String×ℕ)×UnitEdge)) :
    sortIndexes (returnedIn transitions original)=returnedIn transitions original := by
  refine Record.eq_of_get (by simp [sortIndexes]) ?_
  intro line _
  rw [sortIndexes,Record.get_mapValues,returnedIn,Record.get_mapValues]
  cases original.get line with
  | none => rfl
  | some =>
    simp only [Option.map_some,Option.some.injEq]
    apply Pairwise.insertionSort_eq
    exact pairwise_le_range.filter _

/-- State after sound restorations. -/
def stateOf (redemption : CreditTransaction) (original : Allocation)
    (restorations : List Restoration) : CreditFundingState where
  remaining := remainingOf (edgesOf restorations) original
  returnedIndexes := returnedIn (edgesOf restorations) original
  redeemed := redemption.amount
  restored := (restorations.map fun restoration => restoration.cents.sum).sum
  retained := ((remainingOf (edgesOf restorations) original).entries.flatMap Prod.snd).sum

theorem Sound.remaining_nonneg
    (hsd : Sound redemption original restorations) :
    ∀ cents∈(remainingOf (edgesOf restorations) original).entries.flatMap Prod.snd, 0≤cents := by
  intro cents hcen
  obtain ⟨entry,hent,hcen⟩ := mem_flatMap.mp hcen
  obtain ⟨source,hsou,rfl⟩ := mem_map.mp hent
  obtain ⟨n,hn,rfl⟩ := getElem_of_mem hcen
  have hlen : n<source.2.length := by simpa [settledUnits] using hn
  have hord := hsd.chains source.1 source.2 (Record.get_of_mem hsou) n hlen
  simpa [settledUnits,hlen] using hord.range.1

theorem readState_ledger {orderId : String} (hrd : readRedemption redemption=.ok (orderId,original))
    (hled : Ledger redemption original posted) : readState redemption (posted.map Prod.fst) true =
      .ok (stateOf redemption original (posted.map Prod.snd),parsedRows redemption posted) := by
  have hfac := readRedemption_spec hrd
  have hret := sum_nonneg hled.sound.remaining_nonneg
  have hrest : 0≤((posted.map Prod.snd).map fun r => r.cents.sum).sum := by
    apply sum_nonneg
    intro cents hcen
    obtain ⟨restoration,hres,rfl⟩ := mem_map.mp hcen
    exact (hled.sound.fits restoration hres).cents_range.1
  have hcon := hled.sound.conserved
  have hamo := hfac.amount
  have hrs : (posted.map Prod.fst).map CreditTransaction.amount =
      (posted.map Prod.snd).map fun r => r.cents.sum := by
    rw [map_map,map_map]
    apply map_congr_left
    intro entry hent
    exact (hled.stored entry hent).amount
  rw [readState,hrd]
  simp only [bind,Except.bind,requireFact_true rfl,scan_ledger hled hfac.order]
  have hleg : (.empty : Record String LegacyGroup).entries.foldlM (applyLegacy original)
      (startVectors original)=.ok (startVectors original) := rfl
  simp only [hleg,modern_ledger hled,settleLines_eq _ hled.sound.chains,hrs]
  rw [sum_eq ⟨hrest,by omega⟩,sum_eq ⟨hret,by omega⟩]
  simp only [requireFact_true (decide_eq_true hcon),sortIndexes_returnedIn]
  rfl

end Reading

end SellRight.CreditFundingChains

