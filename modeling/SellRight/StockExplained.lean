import SellRight.RunHistory
import SellRight.StockDeskMoves

/-!
# Movements explain the units on hand

Absolute writes and adjustments note the difference they make, reservations
note nothing and change nothing on hand. Shipments and refunds note what they
take or put back, so the movements of a variant keep summing to its units on
hand as long as every shipment finds its units there and every restocked unit
a stock row. Shipping more clamps the row at zero under a movement of all the
units, and the two drift apart.
-/

namespace SellRight.StockExplained

open RunHistory RowTable OrderLifecycle StockStore StockRelease StockDesk StockDeskMoves List
  FallibleSteps

variable (d : Desk)

/-- Units the admin stock routes moved of a variant. -/
def adjustedUnits (v : String) : ℤ :=
  ((d.adjustments.filter fun m => decide (m.variantId=v)).map Adjustment.delta).sum

/-- The units on hand of every variant are the sum of its movements. -/
def Explained : Prop :=
  ∀ v, (onHandOf d.store v : ℤ)=movedUnits d.store v+adjustedUnits d v

/-- Units a refund line puts back. -/
def returnedBy (s : Store) (line : RefundLine) : List (String×ℕ) :=
  match s.lines.find? fun row => row.id=line.orderLineId with
  | none => []
  | some row => match row.variantId with
    | some v => if line.restock then [(v,line.currentQuantity-unfulfilledUnits line row)] else []
    | none => []

/-- Units the lines of a refund put back, each as it is when its turn comes. -/
def returnedUnits (orderId : String) : Store → List RefundLine → List (String×ℕ)
  | _, [] => []
  | s, line::lines => returnedBy s line++match refundLineEffect orderId s line with
    | .ok next => returnedUnits orderId next lines
    | .error _ => []

/-- Units the stock effects of a refund put back, if they are applied. -/
def effectReturns (s : Store) (refund : Refund) (proven : Bool) : List (String×ℕ) :=
  if refund.stockApplied || !proven then []
  else match refund.lines.foldlM (refundLineEffect refund.orderId) s with
    | .error _ => []
    | .ok _ => returnedUnits refund.orderId s refund.lines

/-- Units an accepted operation ships. -/
def shipments : DeskAction → List (OrderLine×ℕ)
  | .fulfill orderId target _ _ => if advancingToShipped (latest d orderId) target then
      openEntries d.store orderId else []
  | .bulkFulfill orderId target _ _ => if advancingToShipped (latest d orderId) target then
      openEntries d.store orderId else []
  | .createFulfillment orderId body => (checkShipment (linesOf d.store orderId) body.lines []).getD []
  | .importTracking orderId _ _ => if hasOpenUnits d.store orderId then
      openEntries d.store orderId else []
  | _ => []

/-- Units an accepted operation puts back. -/
def returns : DeskAction → List (String×ℕ)
  | .settleRefund refundId proven =>
    match d.store.refunds.find? fun refund => refund.id=refundId with
    | some refund => effectReturns (markSettled d.store refundId) refund proven
    | none => []
  | _ => []

/-- What an accepted operation ships is on hand, and what it puts back has a
stock row. -/
def Covered (a : DeskAction) : Prop :=
  ∀ next, runDesk d a=.ok next →
    (∀ v, unitsTaken v (shipments d a)≤onHandOf d.store v) ∧
      ∀ v, v∉d.store.stock.map StockRow.variantId → returnedTo v (returns d a)=0

section Refunds

variable {s next : Store} {orderId : String}

/-- Putting units of a variant on hand. -/
theorem restock_moves {mid : Store} (hsto : mid.stock.map stockColumns=s.stock.map stockColumns)
    (hmv : mid.movements=s.movements) (v : String) (n : ℕ) (o l : Option String) :
    Moves s {writeStock mid v (restockUnits n) with
      movements := mid.movements++[⟨v,n,.refundRestock,o,l⟩]} [] [(v,n)] := by
  have hno := Moves.none hsto hmv
  have hput : Moves mid {writeStock mid v (restockUnits n) with
      movements := mid.movements++[⟨v,n,.refundRestock,o,l⟩]} [] [(v,n)] := by
    refine ⟨rows_writeStock _ _ _ fun _ => rfl,fun w => ?_,fun w => ?_⟩
    · have hwri := onHandOf_writeStock mid v w (restockUnits n) fun _ => rfl
      change onHandOf (writeStock mid v (restockUnits n)) w=_
      rw [hwri]
      by_cases hw : w=v
      · subst hw
        rw [if_pos rfl,onHandOf]
        cases hfd : mid.stock.find? fun row => decide (row.variantId=w) with
        | none =>
          have hout : w∉mid.stock.map StockRow.variantId := fun hin => by
            obtain ⟨row,hrow,hid⟩ := mem_map.mp hin
            simpa [hid] using List.find?_eq_none.mp hfd row hrow
          rw [if_neg hout]
          rfl
        | some =>
          have hrow := find_key_eq_some StockRow.variantId hfd
          rw [if_pos (hrow.2 ▸ mem_map_of_mem hrow.1)]
          simp [restockUnits,unitsTaken,returnedTo]
      · rw [if_neg hw]
        simp [unitsTaken,returnedTo,Ne.symm hw]
    · simp only [movedUnits]
      by_cases hw : w=v
      · simp [hw,unitsTaken,returnedTo]
      · simp [Ne.symm hw,unitsTaken,returnedTo]
  have hbo := hno.putBack hput
  rwa [nil_append] at hbo

theorem refundLineEffect_moves {line : RefundLine}
    (heff : refundLineEffect orderId s line=.ok next) : Moves s next [] (returnedBy s line) := by
  obtain ⟨row,hfd,-,-,-,hcas⟩ := refundLineEffect_ok heff
  rcases hcas with ⟨hvar,rfl⟩|⟨v,hvar,hback⟩
  · have hby : returnedBy s line=[] := by simp only [returnedBy,hfd,hvar]
    rw [hby]
    exact .none rfl rfl
  · have hby : returnedBy s line=if line.restock then
        [(v,line.currentQuantity-unfulfilledUnits line row)] else [] := by
      simp only [returnedBy,hfd,hvar]
    have hsto : (releasedLine s line row v).stock.map stockColumns=s.stock.map stockColumns :=
      map_updateWhere _ _ fun _ _ => rfl
    rw [hby]
    rcases hback with ⟨hres,-,rfl⟩|⟨hbk,rfl⟩
    · rw [if_pos hres]
      exact restock_moves hsto rfl v _ _ _
    · have hno : Moves s (releasedLine s line row v) [] [] := .none hsto rfl
      by_cases hres : line.restock=true
      · have hnot : ¬ 0<line.currentQuantity-unfulfilledUnits line row :=
          fun hpos => hbk ⟨hres,hpos⟩
        have hz : ∀ w, returnedTo w [(v,line.currentQuantity-unfulfilledUnits line row)]=0 := by
          intro w
          rw [Nat.eq_zero_of_not_pos hnot]
          simp only [returnedTo,filter_cons,filter_nil]
          split <;> rfl
        rw [if_pos hres]
        exact ⟨hno.rows,fun w => by rw [hno.onHand,hz]; rfl,fun w => by rw [hno.moved,hz]; rfl⟩
      · rw [if_neg hres]
        exact hno

theorem refundLines_moves {lines : List RefundLine}
    (heff : lines.foldlM (refundLineEffect orderId) s=.ok next) :
    Moves s next [] (returnedUnits orderId s lines) := by
  induction lines generalizing s with
  | nil =>
    cases heff
    exact .none rfl rfl
  | cons _ _ ih =>
    rw [foldlM_cons,bind_eq_ok] at heff
    obtain ⟨mid,heffe,hrt⟩ := heff
    have hbo := (refundLineEffect_moves heffe).putBack (ih hrt)
    rw [returnedUnits,heffe]
    exact hbo

end Refunds

section Writes

variable {d next : Desk} {id : String} {row : StockRow} {n : ℕ} {noted : List Adjustment}

/-- Operations that ship what is on hand and put back what has a row keep the
movements explaining. -/
theorem Explained.moves (hd : Explained d) {out : List (OrderLine×ℕ)} {back : List (String×ℕ)}
    (hmvs : Moves d.store next.store out back) (hnot : next.adjustments=d.adjustments)
    (hout : ∀ v, unitsTaken v out≤onHandOf d.store v)
    (hbk : ∀ v, v∉d.store.stock.map StockRow.variantId → returnedTo v back=0) : Explained next := by
  intro v
  have hold := hd v
  have htk := hout v
  have heq : adjustedUnits next v=adjustedUnits d v := by rw [adjustedUnits,hnot]; rfl
  rw [hmvs.onHand,hmvs.moved,heq]
  split_ifs with hv
  · omega
  · rw [hbk v hv]
    omega

/-- An absolute write that notes its difference. -/
theorem Explained.write (hd : Explained d)
    (hfd : (d.store.stock.find? fun row => decide (row.variantId=id))=some row)
    (hnot : ∀ v, ((noted.filter fun m => decide (m.variantId=v)).map Adjustment.delta).sum =
      adjustedUnits d v+if id=v then (n : ℤ)-row.onHand else 0) : Explained {d with
      store := writeStock d.store id fun old => {old with onHand := n},adjustments := noted} := by
  intro v
  have hold := hd v
  change (onHandOf (writeStock d.store id _) v : ℤ)=movedUnits d.store v+_
  have hwri := onHandOf_writeStock d.store id v (fun old => {old with onHand := n}) fun _ => rfl
  rw [adjustedUnits,hnot,hwri]
  by_cases hv : v=id
  · subst hv
    have hrow : onHandOf d.store v=row.onHand := by simp [onHandOf,hfd]
    rw [if_pos rfl,if_pos rfl,hfd]
    change (n : ℤ)=_
    omega
  · rw [if_neg hv,if_neg (Ne.symm hv)]
    omega

/-- A first stock row under a movement of its units. -/
theorem Explained.insert (hd : Explained d)
    (hfd : (d.store.stock.find? fun row => decide (row.variantId=id))=none)
    (hnot : ∀ v, ((noted.filter fun m => decide (m.variantId=v)).map Adjustment.delta).sum =
      adjustedUnits d v+if id=v then (n : ℤ) else 0) : Explained {d with
      store := {d.store with stock := d.store.stock++[⟨id,n,0⟩]},adjustments := noted} := by
  intro v
  have hold := hd v
  change (onHandOf {d.store with stock := d.store.stock++[⟨id,n,0⟩]} v : ℤ)=movedUnits d.store v+_
  rw [adjustedUnits,hnot]
  by_cases hv : id=v
  · subst hv
    have hno : onHandOf d.store id=0 := by simp [onHandOf,hfd]
    have hnew : onHandOf {d.store with stock := d.store.stock++[⟨id,n,0⟩]} id=n := by
      simp [onHandOf,List.find?_append,hfd]
    rw [if_pos rfl,hnew]
    omega
  · have heq : onHandOf {d.store with stock := d.store.stock++[⟨id,n,0⟩]} v=onHandOf d.store v := by
      simp [onHandOf,List.find?_append,hv]
    rw [if_neg hv,heq]
    omega

/-- Movements after one more is noted. -/
theorem adjusted_concat (d : Desk) (id reason : String) (delta : ℤ) (v : String) :
    (((d.adjustments++[Adjustment.mk id delta reason]).filter fun m =>
      decide (m.variantId=v)).map Adjustment.delta).sum =
        adjustedUnits d v+if id=v then delta else 0 := by
  rw [sum_filter_concat,adjustedUnits]
  by_cases hv : id=v
  · simp [hv]
  · simp [hv]

theorem putOnHand_explained (hd : Explained d) (reason id : String) (n : ℕ) :
    Explained (putOnHand reason d id n) := by
  unfold putOnHand
  split
  · next row hfd =>
    refine hd.write hfd fun v => ?_
    split
    · next hz =>
      rw [hz,ite_self,add_zero]
      rfl
    · exact adjusted_concat d id reason _ v
  · next hfd => exact hd.insert hfd (adjusted_concat d id reason n)

theorem setStock_explained (hd : Explained d) {expected : Option ℕ}
    (hrun : setStock d id n expected=.ok next) : Explained next := by
  unfold setStock at hrun
  split at hrun
  · cases hrun
  split at hrun
  · cases hrun
    exact putOnHand_explained hd _ _ _
  · cases hrun

theorem setStockBulk_explained (hd : Explained d) {items : List (String×ℕ)}
    (hrun : setStockBulk d items=.ok next) : Explained next := by
  simp only [setStockBulk] at hrun
  split_ifs at hrun
  cases hrun
  refine List.foldlRecOn _ _ hd fun d hd id _ => ?_
  exact putOnHand_explained hd _ _ _

theorem adjustStock_explained (hd : Explained d) {delta : ℤ} {reason : String}
    (hrun : adjustStock d id delta reason=.ok next) : Explained next := by
  simp only [adjustStock] at hrun
  split at hrun
  · cases hrun
  split at hrun
  · next hfd =>
    split at hrun
    · cases hrun
    split_ifs at hrun with hpos
    cases hrun
    refine hd.insert hfd fun v => ?_
    rw [Int.toNat_of_nonneg (not_lt.mp hpos)]
    exact adjusted_concat d id reason delta v
  · next row hfd =>
    split_ifs at hrun with hpos
    cases hrun
    refine hd.write hfd fun v => ?_
    rw [Int.toNat_of_nonneg (not_lt.mp hpos),add_sub_cancel_left]
    exact adjusted_concat d id reason delta v

end Writes

section Steps

variable {d next : Desk} {s t : Store} {orderId : String}

theorem fulfill_eq (hrun : StockStore.fulfill s orderId=.ok t) :
    t=(linesOf s orderId).foldl shipLine s := by
  simp only [StockStore.fulfill,bind_eq_ok] at hrun
  obtain ⟨order,-,hrun⟩ := hrun
  split at hrun
  · exact (Except.ok.inj hrun).symm
  · cases hrun

theorem importTracking_eq (hrun : StockStore.importTracking s orderId=.ok t) :
    t=(linesOf s orderId).foldl shipLine s := by
  simp only [StockStore.importTracking,bind_eq_ok] at hrun
  obtain ⟨order,-,hrun⟩ := hrun
  split at hrun
  · exact (Except.ok.inj hrun).symm
  · cases hrun

theorem createFulfillment_eq {items : List FulfillmentItem}
    (hrun : StockStore.createFulfillment s orderId items=.ok t) :
    ∃ entries, checkShipment (linesOf s orderId) items []=some entries ∧
      (∀ entry∈entries, onPreOrder s entry.1=false)∧t=entries.foldl shipPart s := by
  simp only [StockStore.createFulfillment,bind_eq_ok] at hrun
  obtain ⟨order,-,hrun⟩ := hrun
  split_ifs at hrun
  split at hrun
  · cases hrun
  · next entries hck =>
    split_ifs at hrun with hno
    refine ⟨entries,hck,?_,(Except.ok.inj hrun).symm⟩
    simpa using hno

/-- An operation that reads the tables of the store and writes them. -/
theorem onStore_eq {result : StockResult Store} (hrun : onStore d result=.ok next) :
    ∃ store, result=.ok store∧next={d with store} := by
  cases result with
  | error => cases hrun
  | ok store => exact ⟨store,rfl,(Except.ok.inj hrun).symm⟩

theorem openEntries_moves (s : Store) (orderId : String) :
    Moves s ((linesOf s orderId).foldl shipLine s) (openEntries s orderId) [] :=
  moves_foldl shipLine_moves _ s

theorem recordWhole_adjustments (d : Desk) (existing : Option Fulfillment) (target : Target)
    (tracking carrier : Option String) :
    (recordWhole d orderId existing target tracking carrier).adjustments=d.adjustments := by
  cases existing with
  | none | some => rfl

theorem shipWhole_moves {target : Target} {tracking carrier : Option String} {subject : String}
    (hrun : shipWhole d orderId target tracking carrier subject=.ok next) :
    Moves d.store next.store (if advancingToShipped (latest d orderId) target then
      openEntries d.store orderId else []) []∧next.adjustments=d.adjustments := by
  simp only [shipWhole,bind_eq_ok] at hrun
  obtain ⟨order,-,hrun⟩ := hrun
  split at hrun
  · cases hrun
  obtain ⟨store,hsto,hrun⟩ := bind_eq_ok.mp hrun
  cases hrun
  refine ⟨?_,recordWhole_adjustments d _ _ _ _⟩
  unfold shipOpen at hsto
  by_cases hadv : advancingToShipped (latest d orderId) target=true
  · rw [if_pos hadv] at hsto ⊢
    rw [fulfill_eq hsto]
    exact openEntries_moves d.store orderId
  · rw [if_neg hadv] at hsto ⊢
    cases hsto
    exact .none rfl rfl

theorem createFulfillment_moves {body : ShipmentBody}
    (hrun : StockDesk.createFulfillment d orderId body=.ok next) :
    Moves d.store next.store ((checkShipment (linesOf d.store orderId) body.lines []).getD []) [] ∧
      next.adjustments=d.adjustments := by
  simp only [StockDesk.createFulfillment,bind_eq_ok] at hrun
  obtain ⟨order,-,hrun⟩ := hrun
  split at hrun
  · cases hrun
  obtain ⟨store,hsto,hrun⟩ := bind_eq_ok.mp hrun
  cases hrun
  obtain ⟨entries,hck,-,rfl⟩ := createFulfillment_eq hsto
  have hmvs := moves_foldl shipPart_moves entries d.store
  rw [map_id'] at hmvs
  rw [hck]
  exact ⟨hmvs,rfl⟩

theorem markShipped_store (d : Desk) (state : FulfillmentState) (tracking : String)
    (carrier : Option String) : (markShipped d orderId state tracking carrier).store=d.store ∧
      (markShipped d orderId state tracking carrier).adjustments=d.adjustments := by
  unfold markShipped
  split
  · exact ⟨rfl,rfl⟩
  · exact ⟨rfl,rfl⟩

section
variable {tracking : String} {carrier : Option String}
variable (hrun : importTracking d orderId tracking carrier=.ok next)
include hrun

/-- A row of a tracking file ships everything that is open, or changes a
fulfilment row of an order without open units. -/
theorem importTracking_cases :
    (hasOpenUnits d.store orderId=true ∧
      ∃ store, StockStore.importTracking d.store orderId=.ok store ∧
        next={addFulfillment d orderId .shipped (some tracking) carrier none
          (remainingItems d.store orderId) with store}) ∨
    (hasOpenUnits d.store orderId=false∧∃ state, (state=.pending∨state=.shipped) ∧
      next=markShipped d orderId state tracking carrier) := by
  simp only [StockDesk.importTracking,bind_eq_ok] at hrun
  obtain ⟨order,hord,hrun⟩ := hrun
  have hid : order.id=orderId := by
    unfold findOrder at hord
    split at hord
    · next hfd =>
      cases hord
      exact of_decide_eq_true (List.find?_some (p := fun other : Order => decide (other.id=orderId)) hfd)
    · cases hord
  split at hrun
  · cases hrun
  split at hrun
  · split_ifs at hrun with hop
    · obtain ⟨store,hsto,hrun⟩ := bind_eq_ok.mp hrun
      exact .inl ⟨hop,store,hsto,(Except.ok.inj hrun).symm⟩
    · exact .inr ⟨by simpa using hop,.pending,.inl rfl,(Except.ok.inj hrun).symm⟩
  · next hsta =>
    refine .inr ⟨?_,.shipped,.inr rfl,(Except.ok.inj hrun).symm⟩
    by_contra hclo
    have hop : hasOpenUnits d.store orderId=true := by simpa using hclo
    simp only [classifyTrackingRow,hid,hop,if_true] at hsta
    split at hsta
    · cases hsta
    split at hsta
    · cases hsta
    · split at hsta
      · cases hsta
      · cases hsta
  · cases hrun

theorem importTracking_moves :
    Moves d.store next.store (if hasOpenUnits d.store orderId then
      openEntries d.store orderId else []) []∧next.adjustments=d.adjustments := by
  rcases importTracking_cases hrun with ⟨hop,store,hsto,rfl⟩|⟨hno,state,-,rfl⟩
  · rw [if_pos hop,importTracking_eq hsto]
    exact ⟨openEntries_moves d.store orderId,rfl⟩
  · rw [hno,(markShipped_store d state tracking carrier).1]
    exact ⟨.none rfl rfl,(markShipped_store d state tracking carrier).2⟩

end

/-- Reserving changes no units on hand. -/
theorem reserve_columns {items : List ReservableItem} {bySku : String → Option Variant}
    {stock final : List StockRow} {any : Bool}
    (hrun : reserveStockOrThrow stock items bySku=.ok (any,final)) :
    final.map stockColumns=stock.map stockColumns := by
  have hloo : ∀ (entries : List PhysicalItem) (state : List StockRow×List ℕ),
      (entries.foldl reserveItem state).1.map stockColumns=state.1.map stockColumns := by
    intro entries
    induction entries with
    | nil => exact fun _ => rfl
    | cons _ _ ih =>
      intro state
      rw [foldl_cons,ih]
      exact map_updateWhere _ _ fun _ _ => rfl
  simp only [reserveStockOrThrow] at hrun
  split at hrun
  · cases hrun
    exact hloo _ _
  · cases hrun

theorem place_moves {input : Placement} (hrun : place s input=.ok t) : Moves s t [] [] := by
  simp only [place] at hrun
  split at hrun
  · cases hrun
  obtain ⟨⟨any,stock⟩,hsto,hrun⟩ := bind_eq_ok.mp hrun
  split at hrun
  · cases hrun
  · cases hrun
    exact .none (reserve_columns hsto) rfl

theorem settleRefund_moves {refundId : String} {proven : Bool}
    (hrun : settleRefund s refundId proven=.ok t) : Moves s t []
      (match s.refunds.find? fun refund => refund.id=refundId with
        | some refund => effectReturns (markSettled s refundId) refund proven
        | none => []) := by
  unfold settleRefund at hrun
  split at hrun
  · cases hrun
  · next refund hfd =>
    rw [hfd]
    split_ifs at hrun
    cases hrun
    dsimp only
    have hmar : Moves s (markSettled s refundId) [] [] := .none rfl rfl
    unfold applyRefundStockEffects effectReturns
    split
    · exact hmar
    cases happ : refund.lines.foldlM (refundLineEffect refund.orderId) (markSettled s refundId) with
    | error _ => exact hmar
    | ok applied =>
      have hmvs := refundLines_moves happ
      exact hmar.putBack (a := []) ⟨hmvs.rows,hmvs.onHand,hmvs.moved⟩

/-- Every accepted operation whose shipments are on hand keeps the movements
explaining. -/
theorem runDesk_explained (hd : Explained d) {a : DeskAction} (hcov : Covered d a)
    (hrun : runDesk d a=.ok next) : Explained next := by
  obtain ⟨hout,hbk⟩ := hcov next hrun
  have hsto : ∀ result : StockResult Store, onStore d result=.ok next →
      (∀ t, result=.ok t → Moves d.store t (shipments d a) (returns d a)) → Explained next := by
    intro result hres hmvs
    obtain ⟨t,ht,rfl⟩ := onStore_eq hres
    exact hd.moves (hmvs t ht) rfl hout hbk
  cases a with
  | fulfill | bulkFulfill =>
    obtain ⟨hmvs,hnot⟩ := shipWhole_moves hrun
    exact hd.moves hmvs hnot hout hbk
  | createFulfillment =>
    obtain ⟨hmvs,hnot⟩ := createFulfillment_moves hrun
    exact hd.moves hmvs hnot hout hbk
  | importTracking =>
    obtain ⟨hmvs,hnot⟩ := importTracking_moves hrun
    exact hd.moves hmvs hnot hout hbk
  | setStock => exact setStock_explained hd hrun
  | setStockBulk => exact setStockBulk_explained hd hrun
  | adjustStock => exact adjustStock_explained hd hrun
  | place => exact hsto _ hrun fun t ht => place_moves ht
  | editVariant | failRefund =>
    refine hsto _ hrun fun t ht => ?_
    cases ht
    exact .none rfl rfl
  | advanceOrder | requestRefund =>
    refine hsto _ hrun fun t ht => ?_
    simp only [runStock,advanceOrder,requestRefund,bind_eq_ok] at ht
    obtain ⟨order,-,ht⟩ := ht
    split_ifs at ht
    cases ht
    exact .none rfl rfl
  | settleRefund => exact hsto _ hrun fun t ht => settleRefund_moves ht

end Steps

/-- In every run whose shipments find their units on hand and whose restocked
units have a stock row, the movements of every variant sum to its units on
hand after every step, and a refused step changes nothing. -/
theorem movements_explain {start d : Desk} {h : List (Event Desk DeskAction (StockResult Unit))}
    (hstart : Explained start) (hrun : Run deskStep (fun _ d a => Covered d a) start h d) :
    (Explained d∧∀ e∈h, Explained e.after) ∧
      ∀ a error, (deskStep d a).1=.error error→(deskStep d a).2=d := by
  constructor
  · refine hrun.invariant (P := fun h d => Explained d∧∀ e∈h, Explained e.after) ⟨hstart,by simp⟩ ?_
    rintro h d a ⟨hd,hpa⟩ hcov
    have hnx : Explained (deskStep d a).2 := by
      unfold deskStep
      split
      · next hok => exact runDesk_explained hd hcov hok
      · exact hd
    refine ⟨hnx,fun e he => ?_⟩
    rcases mem_concat_iff.mp he with hold|rfl
    · exact hpa e hold
    · exact hnx
  · intro a error her
    unfold deskStep at her ⊢
    split at her
    · cases her
    · rfl

/-- A store with one variant on pre-order and no stock row. -/
def sampleDesk : Desk where
  store := ⟨[⟨"variant-1", "pen",true,true,.physical⟩],[],[],[],[],[],[]⟩
  fulfillments := []
  nextFulfillment := 0
  locations := []
  stockLocations := []
  adjustments := []
  deletedVariants := []
  trashedOrders := []
  quarantinedOrders := []

theorem sampleDesk_explained : Explained sampleDesk := fun _ => rfl

/-- Count in units, sell two ahead of their release, and ship the order. -/
def sampleActions (units : ℤ) : List DeskAction :=
  [.adjustStock "variant-1" units "count",
    .place ⟨"order-a",true,[⟨"pen",2⟩],["line-a"]⟩,.fulfill "order-a" .shipped none none]

/-- Two units shipped with one on hand leave none under movements that sum to
minus one. -/
theorem movements_drift : Explained sampleDesk ∧
    ∃ (h : List (Event Desk DeskAction (StockResult Unit))) (d : Desk),
      Run deskStep (fun _ _ _ => True) sampleDesk h d∧(∀ e∈h, e.result=.ok ()) ∧
        onHandOf d.store "variant-1" = 0∧¬ Explained d := by
  refine ⟨sampleDesk_explained,_,_,Run.nil.play (sampleActions 1) (by simp [Admitted,sampleActions]),
    ?_,by decide +kernel,fun hd => ?_⟩
  · decide +kernel
  · exact absurd (hd "variant-1") (by decide +kernel)

/-- With three units on hand the movements explain the one that is left. -/
theorem movements_explain_covered :
    ∃ (h : List (Event Desk DeskAction (StockResult Unit))) (d : Desk),
      Run deskStep (fun _ d a => Covered d a) sampleDesk h d∧Explained d ∧
        onHandOf d.store "variant-1" = 1 := by
  have hnot : ∀ (d : Desk) (a : DeskAction), shipments d a=[] → returns d a=[] → Covered d a := by
    intro d a hout hbk next _
    rw [hout,hbk]
    exact ⟨fun _ => Nat.zero_le _,fun _ _ => rfl⟩
  have hadm : Admitted deskStep (fun _ d a => Covered d a) [] sampleDesk (sampleActions 3) := by
    refine ⟨hnot _ _ rfl rfl,hnot _ _ rfl rfl,fun next _ => ⟨fun v => ?_,fun _ _ => rfl⟩,trivial⟩
    by_cases hv : v = "variant-1"
    · rw [hv]
      decide +kernel
    have hent : shipments (play deskStep [] sampleDesk ((sampleActions 3).take 2)).2
        (.fulfill "order-a" .shipped none none) =
        [(⟨"line-a", "order-a",some "variant-1",2,0,0,0,0,none⟩,2)] := by decide +kernel
    change unitsTaken v (shipments (play deskStep [] sampleDesk ((sampleActions 3).take 2)).2
      (.fulfill "order-a" .shipped none none))≤_
    rw [hent]
    simp [unitsTaken,Ne.symm hv]
  have hpla := Run.nil.play _ hadm
  exact ⟨_,_,hpla,(movements_explain sampleDesk_explained hpla).1.1,by decide +kernel⟩

end SellRight.StockExplained
