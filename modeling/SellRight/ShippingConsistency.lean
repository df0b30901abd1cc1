import SellRight.StockExplained

/-!
# Consistent shipping

Whichever route ships an order, shipped and cancelled units stay within the
ordered ones, shipped units only grow, the shipment movements of an order
balance them, and a fulfilment that was shipped or delivered does not go back.
That no unit on pre-order ships and that a whole order answered as shipped has
no open unit holds as long as whole orders and tracking rows take no open
pre-order line and no whole order follows a partial shipment.
-/

namespace SellRight.ShippingConsistency

open RunHistory RowTable OrderLifecycle StockStore StockRelease StockDesk StockExplained List
  FallibleSteps

/-- Line ids are distinct, and shipped and cancelled units lie within the
ordered ones. -/
structure Bounded (s : Store) : Prop where
  ids : (s.lines.map OrderLine.id).Nodup
  within : ∀ line∈s.lines, line.fulfilledQty+line.cancelledQty≤line.quantity

/-- Fulfilment ids are distinct and drawn in order. -/
structure Numbered (d : Desk) : Prop where
  ids : (d.fulfillments.map Fulfillment.id).Nodup
  below : ∀ f∈d.fulfillments, f.id<d.nextFulfillment

/-- Units the shipment movements of an order moved of a variant. -/
def shippedUnits (s : Store) (o v : String) : ℤ :=
  ((s.movements.filter fun m => decide (m.reason=.fulfillment) &&
    decide (m.refOrderId=some o)&&decide (m.variantId=v)).map Movement.delta).sum

def ofVariant (o v : String) (line : OrderLine) : Bool :=
  decide (line.orderId=o)&&decide (line.variantId=some v)

/-- Shipped units of the lines of an order with a variant. -/
def fulfilledUnits (s : Store) (o v : String) : ℤ :=
  ((s.lines.filter (ofVariant o v)).map fun line => (line.fulfilledQty : ℤ)).sum

/-- Movements and lines agree on what was shipped since. -/
def Balanced (s next : Store) : Prop := ∀ o v,
  shippedUnits next o v+fulfilledUnits next o v=shippedUnits s o v+fulfilledUnits s o v

/-- Units taken from the line with an id. -/
def takenFrom (id : String) (entries : List (OrderLine×ℕ)) : ℕ :=
  ((entries.filter fun entry => decide (entry.1.id=id)).map Prod.snd).sum

/-- A line after shipments. -/
def afterShipping (entries : List (OrderLine×ℕ)) (line : OrderLine) : OrderLine :=
  {line with fulfilledQty := line.fulfilledQty+takenFrom line.id entries}

/-- Units of lines were shipped. -/
structure Ships (s next : Store) (entries : List (OrderLine×ℕ)) : Prop where
  bounded : Bounded next
  lines : next.lines=s.lines.map (afterShipping entries)
  balanced : Balanced s next

/-- Nothing was shipped. -/
structure Rests (s next : Store) : Prop where
  bounded : Bounded next
  kept : ∀ line∈s.lines, ∃ after∈next.lines, after.id=line.id∧after.fulfilledQty=line.fulfilledQty
  balanced : Balanced s next

variable {orderId : String} {tracking carrier : Option String}

section Lines

variable {s mid next : Store} {line : OrderLine}

theorem Rests.same (hs : Bounded s) (hlns : next.lines=s.lines)
    (hmv : ∀ o v, shippedUnits next o v=shippedUnits s o v) : Rests s next where
  bounded := ⟨hlns ▸ hs.ids,hlns ▸ hs.within⟩
  kept := fun line hln => ⟨line,hlns ▸ hln,rfl,rfl⟩
  balanced := fun o v => by rw [hmv,fulfilledUnits,fulfilledUnits,hlns]

theorem Rests.trans (ha : Rests s mid) (hb : Rests mid next) : Rests s next where
  bounded := hb.bounded
  kept := fun line hln => by
    obtain ⟨middle,hmid,hid,hqty⟩ := ha.kept line hln
    obtain ⟨after,haft,hid',hqty'⟩ := hb.kept middle hmid
    exact ⟨after,haft,hid'.trans hid,hqty'.trans hqty⟩
  balanced := fun o v => (hb.balanced o v).trans (ha.balanced o v)

theorem afterShipping_append (a b : List (OrderLine×ℕ)) (line : OrderLine) :
    afterShipping b (afterShipping a line)=afterShipping (a++b) line := by
  simp only [afterShipping,takenFrom,filter_append,map_append,sum_append,add_assoc]
  rfl

theorem afterShipping_nil : afterShipping []=id := rfl

theorem Ships.none (hs : Bounded s) : Ships s s [] :=
  ⟨hs,by rw [afterShipping_nil,map_id],fun _ _ => rfl⟩

theorem Ships.trans {a b : List (OrderLine×ℕ)} (ha : Ships s mid a) (hb : Ships mid next b) :
    Ships s next (a++b) where
  bounded := hb.bounded
  lines := by
    rw [hb.lines,ha.lines,map_map]
    exact map_congr_left fun line _ => afterShipping_append a b line
  balanced := fun o v => (hb.balanced o v).trans (ha.balanced o v)

section
variable (hs : Bounded s) (hln : line∈s.lines)
include hs hln

variable {f : OrderLine → OrderLine}

/-- Rewriting counters of one line within its bound. -/
theorem writeLine_bounded (hid : ∀ row, (f row).id=row.id)
    (hwit : (f line).fulfilledQty+(f line).cancelledQty≤(f line).quantity) :
    Bounded (writeLine s line.id f) where
  ids := nodup_map_updateWhere OrderLine.id hid hs.ids
  within := by
    intro row hrow
    rcases mem_updateWhere.mp hrow with ⟨old,hold,hmt,rfl⟩|⟨hold,-⟩
    · rw [eq_of_key_eq OrderLine.id hs.ids hold hln (of_decide_eq_true hmt)]
      exact hwit
    · exact hs.within row hold

theorem fulfilledUnits_writeLine (hord : (f line).orderId=line.orderId)
    (hvar : (f line).variantId=line.variantId) (o v : String) :
    fulfilledUnits (writeLine s line.id f) o v=fulfilledUnits s o v +
      if ofVariant o v line then ((f line).fulfilledQty : ℤ)-line.fulfilledQty else 0 := by
  unfold fulfilledUnits writeLine
  rw [sum_filter_update_key OrderLine.id (ofVariant o v) _ hs.ids hln]
  have heq : ofVariant o v (f line)=ofVariant o v line := by
    rw [ofVariant,ofVariant,hord,hvar]
  rw [heq]
  split
  · rfl
  · rfl

end

theorem shipPart_ships (hs : Bounded s) {entry : OrderLine×ℕ} (hln : entry.1∈s.lines)
    (hun : entry.2≤entry.1.openQty) : Ships s (shipPart s entry) [entry] := by
  have hwit := hs.within entry.1 hln
  set shipped := writeLine s entry.1.id fun row =>
    {row with fulfilledQty := row.fulfilledQty+entry.2}
  have hbou : Bounded shipped := by
    refine writeLine_bounded hs hln (fun _ => rfl) ?_
    unfold OrderLine.openQty at hun
    dsimp only
    omega
  have hrs : shipped.lines=s.lines.map (afterShipping [entry]) := by
    refine map_congr_left fun row _ => ?_
    by_cases hid : entry.1.id=row.id
    · simp [afterShipping,takenFrom,hid]
    · simp [afterShipping,takenFrom,hid,Ne.symm hid]
  have hct := fun o v => fulfilledUnits_writeLine hs hln (f := fun row =>
    {row with fulfilledQty := row.fulfilledQty+entry.2}) rfl rfl o v
  unfold shipPart
  cases hvar : entry.1.variantId with
  | none =>
    refine ⟨hbou,hrs,fun o v => ?_⟩
    have hot : ofVariant o v entry.1=false := by simp [ofVariant,hvar]
    rw [hct,hot]
    simp [shippedUnits,writeLine]
  | some w =>
    refine ⟨⟨hbou.ids,hbou.within⟩,hrs,fun o v => ?_⟩
    have hlns : fulfilledUnits (noteShipped (writeStock shipped w (shipUnits entry.2)) entry.1 w
        entry.2) o v=fulfilledUnits shipped o v := rfl
    dsimp only
    rw [hlns,hct,shippedUnits,noteShipped]
    rw [sum_filter_concat]
    change shippedUnits s o v+_+_=_
    by_cases hof : entry.1.orderId=o∧w=v
    · simp only [ofVariant,hvar,hof,decide_true,Bool.and_self,if_true,Nat.cast_add]
      ring
    have hnot : ofVariant o v entry.1=false := by
      simpa [ofVariant,hvar] using hof
    rw [hnot,if_neg (by simpa using hof)]
    simp

theorem shipLine_ships (hs : Bounded s) (hln : line∈s.lines) :
    Ships s (shipLine s line) [(line,line.openQty)] := by
  rw [shipLine_eq hs.ids hln (hs.within line hln)]
  split_ifs with hop
  · exact @shipPart_ships _ hs (line,line.openQty) hln le_rfl
  have hz : line.openQty=0 := by omega
  have htk : ∀ id, takenFrom id [(line,line.openQty)]=0 := fun id => by
    simp only [hz,takenFrom,filter_cons,filter_nil]
    split <;> rfl
  have hid : s.lines.map (afterShipping [(line,line.openQty)])=s.lines := by
    have heq : afterShipping [(line,line.openQty)]=id := by
      funext other
      simp [afterShipping,htk]
    rw [heq,map_id]
  exact ⟨hs,hid.symm,fun _ _ => rfl⟩

/-- A loop of shipments from distinct lines. -/
theorem ships_foldl {α : Type*} {step : Store → α → Store} {entry : α → OrderLine×ℕ}
    (hstep : ∀ s item, Bounded s→(entry item).1∈s.lines →
      (entry item).2≤(entry item).1.openQty → Ships s (step s item) [entry item])
    {items : List α} (hs : Bounded s) (hmem : ∀ item∈items, (entry item).1∈s.lines ∧
      (entry item).2≤(entry item).1.openQty)
    (hdis : (items.map fun item => (entry item).1.id).Nodup) :
    Ships s (items.foldl step s) (items.map entry) := by
  induction items generalizing s with
  | nil => exact .none hs
  | cons item _ ih =>
    obtain ⟨hln,hun⟩ := hmem item mem_cons_self
    have hone := hstep s item hs hln hun
    rw [map_cons,nodup_cons] at hdis
    refine hone.trans (ih hone.bounded (fun other hot => ?_) hdis.2)
    obtain ⟨hin,hle⟩ := hmem other (mem_cons_of_mem _ hot)
    refine ⟨?_,hle⟩
    have hne : (entry item).1.id≠(entry other).1.id := fun heq => hdis.1
      (heq ▸ mem_map_of_mem (f := fun item => (entry item).1.id) hot)
    have hkp : afterShipping [entry item] (entry other).1=(entry other).1 := by
      simp [afterShipping,takenFrom,hne]
    rw [hone.lines]
    exact hkp ▸ mem_map_of_mem hin

theorem openEntries_ships (hs : Bounded s) (orderId : String) :
    Ships s ((linesOf s orderId).foldl shipLine s) (openEntries s orderId) := by
  refine @ships_foldl s OrderLine shipLine (fun line => (line,line.openQty))
    (fun t line ht hln _ => shipLine_ships ht hln) _ hs
    (fun line hln => ⟨mem_of_mem_filter hln,le_rfl⟩) ?_
  exact hs.ids.sublist (filter_sublist.map OrderLine.id)

/-- Rewriting counters of one line other than the shipped one. -/
theorem writeLine_rests (hs : Bounded s) (hln : line∈s.lines) {f : OrderLine → OrderLine}
    (hid : ∀ row, (f row).id=row.id) (hqty : ∀ row, (f row).fulfilledQty=row.fulfilledQty)
    (hord : (f line).orderId=line.orderId) (hvar : (f line).variantId=line.variantId)
    (hwit : line.fulfilledQty+(f line).cancelledQty≤(f line).quantity) :
    Rests s (writeLine s line.id f) where
  bounded := writeLine_bounded hs hln hid (by rw [hqty]; exact hwit)
  kept := by
    intro other hot
    by_cases heq : other.id=line.id
    · exact ⟨f other,mem_updateWhere.mpr (.inl ⟨other,hot,by simpa using heq,rfl⟩),
        hid other,hqty other⟩
    · exact ⟨other,mem_updateWhere.mpr (.inr ⟨hot,by simpa using heq⟩),rfl,rfl⟩
  balanced := fun o v => by
    rw [fulfilledUnits_writeLine hs hln hord hvar,hqty,sub_self,ite_self,add_zero]
    rfl

/-- A restock is no shipment. -/
theorem shippedUnits_restock {m : Movement} (hmv : next.movements=s.movements++[m])
    (hrea : m.reason=.refundRestock) (o v : String) :
    shippedUnits next o v=shippedUnits s o v := by
  rw [shippedUnits,hmv,sum_filter_concat]
  simp [hrea,shippedUnits]

theorem refundLineEffect_rests (hs : Bounded s) {refunded : RefundLine}
    (heff : refundLineEffect orderId s refunded=.ok next) : Rests s next := by
  obtain ⟨row,-,hrow,-,-,hcas⟩ := refundLineEffect_ok heff
  have hwit := hs.within row hrow
  have hcou : Rests s (countedLine s refunded row) := by
    refine writeLine_rests hs hrow (fun _ => rfl) (fun _ => rfl) rfl rfl ?_
    have hop : row.openQty=row.quantity-row.fulfilledQty-row.cancelledQty := rfl
    dsimp only [unfulfilledUnits]
    omega
  rcases hcas with ⟨-,rfl⟩|⟨v,-,⟨-,-,rfl⟩|⟨-,rfl⟩⟩
  · exact hcou
  · exact hcou.trans (.same hcou.bounded rfl (shippedUnits_restock rfl rfl))
  · exact hcou.trans (.same hcou.bounded rfl fun _ _ => rfl)

theorem refundLines_rests (hs : Bounded s) {lines : List RefundLine}
    (heff : lines.foldlM (refundLineEffect orderId) s=.ok next) : Rests s next := by
  induction lines generalizing s with
  | nil =>
    cases heff
    exact .same hs rfl fun _ _ => rfl
  | cons _ _ ih =>
    rw [foldlM_cons,bind_eq_ok] at heff
    obtain ⟨mid,heffe,hrt⟩ := heff
    have hone := refundLineEffect_rests hs heffe
    exact hone.trans (ih hone.bounded hrt)

theorem settleRefund_rests (hs : Bounded s) {refundId : String} {proven : Bool}
    (hrun : settleRefund s refundId proven=.ok next) : Rests s next := by
  have hmar : Rests s (markSettled s refundId) := .same hs rfl fun _ _ => rfl
  unfold settleRefund at hrun
  split at hrun
  · cases hrun
  split_ifs at hrun
  cases hrun
  unfold applyRefundStockEffects
  split
  · exact hmar
  split
  · exact hmar
  · next applied happ =>
    have hlns := refundLines_rests hmar.bounded happ
    exact hmar.trans (hlns.trans (.same hlns.bounded rfl fun _ _ => rfl))

theorem place_rests (hs : Bounded s) {input : Placement} (hrun : place s input=.ok next) :
    Rests s next := by
  simp only [place] at hrun
  split at hrun
  · cases hrun
  obtain ⟨⟨any,stock⟩,-,hrun⟩ := bind_eq_ok.mp hrun
  split at hrun
  · cases hrun
  · next hfr =>
    cases hrun
    push Not at hfr
    obtain ⟨-,hlen,hnod⟩ := hfr
    refine ⟨⟨?_,fun line hln => ?_⟩,fun line hln => ?_,fun o v => ?_⟩
    · have hids : ((input.items.zip input.lineIds).map
          (placedLine input.orderId (variantBySku s))).map OrderLine.id=input.lineIds := by
        rw [map_map]
        exact map_snd_zip hlen.le
      rw [map_append,hids]
      exact hnod
    · rcases mem_append.mp hln with hold|hnew
      · exact hs.within line hold
      · obtain ⟨entry,-,rfl⟩ := mem_map.mp hnew
        exact Nat.zero_le _
    · exact ⟨line,mem_append_left _ hln,rfl,rfl⟩
    have hz : ((((input.items.zip input.lineIds).map
        (placedLine input.orderId (variantBySku s))).filter (ofVariant o v)).map
        fun line => (line.fulfilledQty : ℤ)).sum=0 := by
      refine sum_eq_zero fun x hx => ?_
      obtain ⟨line,hln,rfl⟩ := mem_map.mp hx
      obtain ⟨entry,-,rfl⟩ := mem_map.mp (mem_of_mem_filter hln)
      rfl
    unfold fulfilledUnits
    rw [filter_append,map_append,sum_append,hz,add_zero]
    rfl

end Lines

/-- Fulfilments stay, and shipped and delivered ones do not go back. -/
def Forward (rows after : List Fulfillment) : Prop :=
  ∀ f∈rows, ∃ g∈after, g.id=f.id∧(f.state=.delivered → g.state=.delivered) ∧
    (f.state=.shipped → g.state=.shipped∨g.state=.delivered)

theorem Forward.refl (rows : List Fulfillment) : Forward rows rows :=
  fun f hf => ⟨f,hf,rfl,id,.inl⟩

section Fulfillments

variable {d next : Desk} {f : Fulfillment}

theorem forward_update (hd : Numbered d) (hf : f∈d.fulfillments) {write : Fulfillment → Fulfillment}
    (hrs : next.fulfillments=updateWhere (fun row => decide (row.id=f.id)) write d.fulfillments)
    (hnx : next.nextFulfillment=d.nextFulfillment) (hid : ∀ row, (write row).id=row.id)
    (hdel : f.state=.delivered→(write f).state=.delivered)
    (hshi : f.state=.shipped→(write f).state=.shipped∨(write f).state=.delivered) :
    Numbered next∧Forward d.fulfillments next.fulfillments := by
  refine ⟨⟨?_,fun g hg => ?_⟩,fun g hg => ?_⟩
  · rw [hrs]
    exact nodup_map_updateWhere Fulfillment.id hid hd.ids
  · rw [hrs] at hg
    rw [hnx]
    rcases mem_updateWhere.mp hg with ⟨old,hold,-,rfl⟩|⟨hold,-⟩
    · rw [hid]
      exact hd.below old hold
    · exact hd.below g hold
  · rw [hrs]
    by_cases heq : g.id=f.id
    · obtain rfl := eq_of_key_eq Fulfillment.id hd.ids hg hf heq
      exact ⟨write g,mem_updateWhere.mpr (.inl ⟨g,hg,by simp,rfl⟩),hid g,hdel,hshi⟩
    · exact ⟨g,mem_updateWhere.mpr (.inr ⟨hg,by simpa using heq⟩),rfl,id,.inl⟩

variable {state : FulfillmentState}

theorem addFulfillment_forward (hd : Numbered d)
    {location : Option String} {lines : List FulfillmentItem}
    (hrs : next.fulfillments =
      (addFulfillment d orderId state tracking carrier location lines).fulfillments)
    (hnx : next.nextFulfillment=d.nextFulfillment+1) :
    Numbered next∧Forward d.fulfillments next.fulfillments := by
  refine ⟨⟨?_,fun g hg => ?_⟩,fun g hg => ?_⟩
  · rw [hrs]
    exact nodup_map_append Fulfillment.id hd.ids fun old hold => (hd.below old hold).ne
  · rw [hrs] at hg
    rw [hnx]
    rcases mem_append.mp hg with hold|hnew
    · exact (hd.below g hold).trans (Nat.lt_succ_self _)
    · rw [mem_singleton.mp hnew]
      exact Nat.lt_succ_self _
  · rw [hrs]
    exact ⟨g,mem_append_left _ hg,rfl,id,.inl⟩

theorem latest_mem (hf : latest d orderId=some f) : f∈d.fulfillments :=
  mem_of_mem_filter (mem_of_getLast? hf)

/-- What moving a whole order does. -/
theorem shipWhole_spec (hd : Numbered d) (hs : Bounded d.store) {target : Target} {subject : String}
    (hrun : shipWhole d orderId target tracking carrier subject=.ok next) :
    Ships d.store next.store (if advancingToShipped (latest d orderId) target then
      openEntries d.store orderId else []) ∧
      Numbered next∧Forward d.fulfillments next.fulfillments := by
  simp only [shipWhole,bind_eq_ok] at hrun
  obtain ⟨order,-,hrun⟩ := hrun
  split at hrun
  · cases hrun
  · next hadm =>
    obtain ⟨store,hsto,hrun⟩ := bind_eq_ok.mp hrun
    cases hrun
    constructor
    · unfold shipOpen at hsto
      by_cases hadv : advancingToShipped (latest d orderId) target=true
      · rw [if_pos hadv] at hsto ⊢
        rw [fulfill_eq hsto]
        exact openEntries_ships hs orderId
      · rw [if_neg hadv] at hsto ⊢
        cases hsto
        exact .none hs
    · cases hlat : latest d orderId with
      | none => exact addFulfillment_forward hd rfl rfl
      | some =>
        unfold wholeRefusal at hadm
        split at hadm
        · cases hadm
        split at hadm
        · cases hadm
        split at hadm
        · cases hadm
        · next hbk =>
          split_ifs at hadm with hear
          refine forward_update hd (latest_mem hlat) rfl rfl (fun _ => rfl)
            (fun hst => ?_) (fun _ => ?_)
          · cases target with
            | shipped => simp [isIn,hlat,hst] at hbk
            | delivered => rfl
          · cases target with
            | shipped => exact .inl rfl
            | delivered => exact .inr rfl

theorem markShipped_forward (hd : Numbered d) {tracking : String}
    (hst : state=.pending∨state=.shipped) :
    Numbered (markShipped d orderId state tracking carrier) ∧
      Forward d.fulfillments (markShipped d orderId state tracking carrier).fulfillments := by
  unfold markShipped
  split
  · next f hfd =>
    have hf := mem_of_find?_eq_some hfd
    have hin : f.state=state := of_decide_eq_true (List.find?_some (p := fun g : Fulfillment =>
      decide (g.state=state)) hfd)
    refine forward_update hd (mem_of_mem_filter (mem_reverse.mp hf)) rfl rfl
      (fun _ => rfl) (fun hdel => ?_) (fun _ => .inl rfl)
    rcases hst with rfl|rfl
    · cases hin.symm.trans hdel
    · cases hin.symm.trans hdel
  · exact ⟨hd,.refl _⟩

end Fulfillments

/-- An accepted operation shipped its entries, or nothing, and fulfilments
only moved forward. -/
theorem runDesk_spec {d next : Desk} (hd : Numbered d) (hs : Bounded d.store) {a : DeskAction}
    (hrun : runDesk d a=.ok next) :
    (Ships d.store next.store (shipments d a)∨Rests d.store next.store) ∧
      Numbered next∧Forward d.fulfillments next.fulfillments := by
  have hsti : ∀ t : Desk, t.fulfillments=d.fulfillments→t.nextFulfillment=d.nextFulfillment →
      Numbered t∧Forward d.fulfillments t.fulfillments := fun t hrs hnx =>
    ⟨⟨hrs ▸ hd.ids,hrs ▸ hnx ▸ hd.below⟩,hrs ▸ Forward.refl _⟩
  have hsto : ∀ result : StockResult Store, onStore d result=.ok next →
      (∀ t, result=.ok t → Rests d.store t) →
        (Ships d.store next.store (shipments d a)∨Rests d.store next.store) ∧
          Numbered next∧Forward d.fulfillments next.fulfillments := by
    intro result hresu hres
    obtain ⟨t,ht,rfl⟩ := onStore_eq hresu
    exact ⟨.inr (hres t ht),hsti _ rfl rfl⟩
  have hput : ∀ (reason id : String) (n : ℕ) (t : Desk), Rests d.store t.store ∧
      t.fulfillments=d.fulfillments∧t.nextFulfillment=d.nextFulfillment →
        Rests d.store (putOnHand reason t id n).store ∧
          (putOnHand reason t id n).fulfillments=d.fulfillments ∧
            (putOnHand reason t id n).nextFulfillment=d.nextFulfillment := by
    intro reason id n t ht
    unfold putOnHand
    split <;> exact ⟨ht.1.trans (.same ht.1.bounded rfl fun _ _ => rfl),ht.2⟩
  have hno : Rests d.store d.store := .same hs rfl fun _ _ => rfl
  cases a with
  | fulfill | bulkFulfill =>
    obtain ⟨hshi,hfor⟩ := shipWhole_spec hd hs hrun
    exact ⟨.inl hshi,hfor⟩
  | createFulfillment =>
    simp only [runDesk,StockDesk.createFulfillment,bind_eq_ok] at hrun
    obtain ⟨order,-,hrun⟩ := hrun
    split at hrun
    · cases hrun
    obtain ⟨store,hcre,hrun⟩ := bind_eq_ok.mp hrun
    cases hrun
    obtain ⟨entries,hck,-,rfl⟩ := createFulfillment_eq hcre
    obtain ⟨hmem,hdis⟩ := checkShipment_spec hck
    have hshi := ships_foldl (fun t entry ht => shipPart_ships ht) hs (fun entry hent =>
      ⟨mem_of_mem_filter (hmem entry hent).1,(hmem entry hent).2.1⟩) hdis
    rw [map_id'] at hshi
    rw [shipments,hck]
    exact ⟨.inl hshi,addFulfillment_forward hd rfl rfl⟩
  | importTracking orderId tracking carrier =>
    rcases importTracking_cases hrun with ⟨hop,store,himp,rfl⟩|⟨-,state,hst,rfl⟩
    · rw [shipments,if_pos hop,importTracking_eq himp]
      exact ⟨.inl (openEntries_ships hs orderId),addFulfillment_forward hd rfl rfl⟩
    · rw [(markShipped_store d state tracking carrier).1]
      exact ⟨.inr hno,markShipped_forward hd hst⟩
  | setStock id onHand =>
    simp only [runDesk,setStock] at hrun
    split at hrun
    · cases hrun
    split at hrun
    · cases hrun
      obtain ⟨hres,hrs,hnx⟩ := hput "admin_adjust" id onHand d ⟨hno,rfl,rfl⟩
      exact ⟨.inr hres,hsti _ hrs hnx⟩
    · cases hrun
  | setStockBulk =>
    simp only [runDesk,setStockBulk] at hrun
    split_ifs at hrun
    cases hrun
    obtain ⟨hres,hrs,hnx⟩ := List.foldlRecOn (motive := fun t : Desk =>
      Rests d.store t.store∧t.fulfillments=d.fulfillments ∧
        t.nextFulfillment=d.nextFulfillment) _ _ ⟨hno,rfl,rfl⟩ fun t ht id _ => hput _ _ _ t ht
    exact ⟨.inr hres,hsti _ hrs hnx⟩
  | adjustStock =>
    simp only [runDesk,adjustStock] at hrun
    split at hrun
    · cases hrun
    split at hrun <;>
    · split_ifs at hrun
      cases hrun
      exact ⟨.inr (.same hs rfl fun _ _ => rfl),hsti _ rfl rfl⟩
  | place => exact hsto _ hrun fun t ht => place_rests hs ht
  | editVariant | failRefund =>
    refine hsto _ hrun fun t ht => ?_
    cases ht
    exact .same hs rfl fun _ _ => rfl
  | advanceOrder | requestRefund =>
    refine hsto _ hrun fun t ht => ?_
    simp only [runStock,advanceOrder,requestRefund,bind_eq_ok] at ht
    obtain ⟨order,-,ht⟩ := ht
    split_ifs at ht
    cases ht
    exact .same hs rfl fun _ _ => rfl
  | settleRefund => exact hsto _ hrun fun t ht => settleRefund_rests hs ht

/-- The operation moves a whole order to shipped. -/
def MovesWhole (a : DeskAction) (orderId : String) : Prop := ∃ tracking carrier,
  a=.fulfill orderId .shipped tracking carrier∨a=.bulkFulfill orderId .shipped tracking carrier

/-- No open unit on pre-order is shipped, and an order with open units is moved
to shipped only while its newest fulfilment is missing or pending. -/
def Careful (d : Desk) (a : DeskAction) : Prop := ∀ next, runDesk d a=.ok next →
  (∀ entry∈shipments d a, 0<entry.2 → onPreOrder d.store entry.1=false) ∧
    ∀ orderId, MovesWhole a orderId→advancingToShipped (latest d orderId) .shipped=false →
      hasOpenUnits d.store orderId=false

/-- A step shipped consistently. -/
structure Consistent (e : Event Desk DeskAction (StockResult Unit)) : Prop where
  within : ∀ line∈e.after.store.lines, line.fulfilledQty+line.cancelledQty≤line.quantity
  grown : ∀ line∈e.before.store.lines, ∃ after∈e.after.store.lines, after.id=line.id ∧
    line.fulfilledQty≤after.fulfilledQty ∧
      (onPreOrder e.before.store line=true→after.fulfilledQty=line.fulfilledQty)
  balanced : Balanced e.before.store e.after.store
  forward : Forward e.before.fulfillments e.after.fulfillments
  whole : ∀ orderId, MovesWhole e.action orderId→e.result=.ok () →
    ∀ line∈e.after.store.lines, line.orderId=orderId→line.openQty=0

section Steps

variable {d next : Desk} {a : DeskAction}

theorem shipments_mem (d : Desk) (a : DeskAction) :
    ∀ entry∈shipments d a, entry.1∈d.store.lines := by
  have hop : ∀ orderId, ∀ entry∈openEntries d.store orderId, entry.1∈d.store.lines := by
    intro orderId entry hent
    obtain ⟨line,hln,rfl⟩ := mem_map.mp hent
    exact mem_of_mem_filter hln
  have heit : ∀ (c : Bool) (orderId : String),
      ∀ entry∈(if c then openEntries d.store orderId else []), entry.1∈d.store.lines := by
    intro c orderId entry hent
    cases c with
    | true => exact hop orderId entry hent
    | false => cases hent
  intro entry hent
  cases a with
  | fulfill orderId => exact heit _ orderId entry hent
  | bulkFulfill orderId => exact heit _ orderId entry hent
  | createFulfillment orderId body =>
    rw [shipments] at hent
    cases hck : checkShipment (linesOf d.store orderId) body.lines [] with
    | none =>
      rw [hck] at hent
      cases hent
    | some =>
      rw [hck] at hent
      exact mem_of_mem_filter ((checkShipment_spec hck).1 entry hent).1
  | importTracking orderId => exact heit _ orderId entry hent
  | _ => cases hent

/-- Shipping everything that is open leaves no open unit. -/
theorem openEntries_closed {s : Store} {line : OrderLine}
    (hln : line∈s.lines) (hord : line.orderId=orderId) :
    (afterShipping (openEntries s orderId) line).openQty=0 := by
  have hent : line.openQty≤takenFrom line.id (openEntries s orderId) := by
    refine single_le_sum (fun _ _ => Nat.zero_le _) _ (mem_map.mpr
      ⟨(line,line.openQty),mem_filter.mpr ⟨mem_map.mpr ⟨line,?_,rfl⟩,by simp⟩,rfl⟩)
    exact mem_filter.mpr ⟨hln,by simpa using hord⟩
  unfold OrderLine.openQty at hent ⊢
  unfold afterShipping
  dsimp only
  omega

theorem shipWhole_closed (hd : Numbered d) (hs : Bounded d.store) {subject : String}
    (hop : advancingToShipped (latest d orderId) .shipped=false →
      hasOpenUnits d.store orderId=false)
    (hrun : shipWhole d orderId .shipped tracking carrier subject=.ok next) :
    ∀ line∈next.store.lines, line.orderId=orderId→line.openQty=0 := by
  have hshi := (shipWhole_spec hd hs hrun).1
  intro line hln hord
  rw [hshi.lines] at hln
  obtain ⟨old,hold,rfl⟩ := mem_map.mp hln
  change old.orderId=orderId at hord
  cases hadv : advancingToShipped (latest d orderId) .shipped with
  | true =>
    exact openEntries_closed hold hord
  | false =>
    have hno := any_eq_false.mp (hop hadv) old (mem_filter.mpr ⟨hold,by simpa using hord⟩)
    rw [if_neg Bool.false_ne_true,afterShipping_nil]
    simpa using hno

/-- Every step that is careful ships consistently. -/
theorem step_consistent (hd : Numbered d) (hs : Bounded d.store) (hcar : Careful d a) :
    Consistent (perform deskStep d a)∧Numbered (deskStep d a).2 ∧
      Bounded (deskStep d a).2.store := by
  cases hrun : runDesk d a with
  | error error =>
    have hstep : deskStep d a=(.error error,d) := by rw [deskStep,hrun]
    unfold perform
    rw [hstep]
    exact ⟨⟨hs.within,fun line hln => ⟨line,hln,rfl,le_rfl,fun _ => rfl⟩,fun _ _ => rfl,
      Forward.refl _,fun _ _ hok => by cases hok⟩,hd,hs⟩
  | ok next =>
    have hstep : deskStep d a=(.ok (),next) := by rw [deskStep,hrun]
    obtain ⟨hpre,hwho⟩ := hcar next hrun
    obtain ⟨hlns,hnum,hfor⟩ := runDesk_spec hd hs hrun
    have hclo : ∀ orderId, MovesWhole a orderId →
        ∀ line∈next.store.lines, line.orderId=orderId→line.openQty=0 := by
      rintro orderId ⟨tracking,carrier,rfl|rfl⟩
      · exact shipWhole_closed hd hs (hwho orderId ⟨tracking,carrier,.inl rfl⟩) hrun
      · exact shipWhole_closed hd hs (hwho orderId ⟨tracking,carrier,.inr rfl⟩) hrun
    unfold perform
    rw [hstep]
    rcases hlns with hshi|hres
    · refine ⟨⟨hshi.bounded.within,fun line hln => ?_,hshi.balanced,hfor,
        fun orderId hmvs _ => hclo orderId hmvs⟩,hnum,hshi.bounded⟩
      have haft : afterShipping (shipments d a) line∈next.store.lines := by
        rw [hshi.lines]
        exact mem_map_of_mem hln
      refine ⟨_,haft,rfl,Nat.le_add_right _ _,fun hpreo => ?_⟩
      have hz : takenFrom line.id (shipments d a)=0 := by
        refine sum_eq_zero fun n hn => ?_
        obtain ⟨entry,hent,rfl⟩ := mem_map.mp hn
        obtain ⟨hin,hid⟩ := mem_filter.mp hent
        have heq := eq_of_key_eq OrderLine.id hs.ids (shipments_mem d a entry hin) hln
          (of_decide_eq_true hid)
        by_contra hpos
        have hfr := hpre entry hin (Nat.pos_of_ne_zero hpos)
        rw [heq,hpreo] at hfr
        cases hfr
      rw [afterShipping,hz]
      rfl
    · refine ⟨⟨hres.bounded.within,fun line hln => ?_,hres.balanced,hfor,
        fun orderId hmvs _ => hclo orderId hmvs⟩,hnum,hres.bounded⟩
      obtain ⟨after,haft,hid,hqty⟩ := hres.kept line hln
      exact ⟨after,haft,hid,hqty.ge,fun _ => hqty⟩

end Steps

/-- In every run of careful steps every step ships consistently, and the
shipment movements of an order balance what its lines shipped. -/
theorem shipping_consistent {start d : Desk} {h : List (Event Desk DeskAction (StockResult Unit))}
    (hnumbered : Numbered start) (hbounded : Bounded start.store)
    (hrun : Run deskStep (fun _ d a => Careful d a) start h d) :
    (∀ e∈h, Consistent e)∧∀ o v, shippedUnits d.store o v-shippedUnits start.store o v =
      -(fulfilledUnits d.store o v-fulfilledUnits start.store o v) := by
  have hall : (Numbered d∧Bounded d.store∧Balanced start.store d.store) ∧
      ∀ e∈h, Consistent e := by
    refine hrun.invariant (P := fun h d => (Numbered d∧Bounded d.store ∧
      Balanced start.store d.store)∧∀ e∈h, Consistent e)
      ⟨⟨hnumbered,hbounded,fun _ _ => rfl⟩,by simp⟩ ?_
    rintro h d a ⟨⟨hd,hs,hbal⟩,hpa⟩ hcar
    obtain ⟨hcon,hnx⟩ := step_consistent hd hs hcar
    refine ⟨⟨hnx.1,hnx.2,fun o v => (hcon.balanced o v).trans (hbal o v)⟩,fun e he => ?_⟩
    rcases mem_append.mp he with hold|hlt
    · exact hpa e hold
    · cases mem_singleton.mp hlt
      exact hcon
  refine ⟨hall.2,fun o v => ?_⟩
  have hbal := hall.1.2.2 o v
  omega

/-- Two units on pre-order are ordered and paid. -/
def placed : DeskAction := .place ⟨"order-a",true,[⟨"pen",2⟩],["line-a"]⟩

/-- The whole order ships while its variant is on pre-order. -/
def earlyActions : List DeskAction := [placed,.fulfill "order-a" .shipped none none]

/-- One unit ships once the variant is out, then the whole order. -/
def partialActions : List DeskAction :=
  [placed,.editVariant "variant-1" true false .physical,
    .createFulfillment "order-a" ⟨[⟨"line-a",1⟩],none,none,none⟩,
    .fulfill "order-a" .shipped none none]

/-- A whole order ships units on pre-order, and answers as shipped with a unit
left open after a partial shipment. -/
theorem shipping_careless :
    (∃ (h : List (Event Desk DeskAction (StockResult Unit))) (d : Desk),
      Run deskStep (fun _ _ _ => True) sampleDesk h d∧(∃ e∈h, e.result=.ok () ∧
        ∃ line∈e.before.store.lines, onPreOrder e.before.store line=true ∧
          ∃ after∈e.after.store.lines, after.id=line.id∧line.fulfilledQty<after.fulfilledQty)) ∧
    ∃ (h : List (Event Desk DeskAction (StockResult Unit))) (d : Desk),
      Run deskStep (fun _ _ _ => True) sampleDesk h d∧(∃ e∈h, e.result=.ok () ∧
        MovesWhole e.action "order-a" ∧
          ∃ line∈e.after.store.lines, line.orderId = "order-a" ∧ 0<line.openQty) := by
  refine ⟨⟨_,_,Run.nil.play earlyActions (by simp [Admitted,earlyActions]),
      perform deskStep (play deskStep [] sampleDesk (earlyActions.take 1)).2
        (.fulfill "order-a" .shipped none none),?_,by decide +kernel,
      ⟨"line-a", "order-a",some "variant-1",2,0,0,0,0,none⟩,?_,by decide +kernel,
      ⟨"line-a", "order-a",some "variant-1",2,2,0,0,0,none⟩,?_,rfl,by decide⟩,
    ⟨_,_,Run.nil.play partialActions (by simp [Admitted,partialActions]),
      perform deskStep (play deskStep [] sampleDesk (partialActions.take 3)).2
        (.fulfill "order-a" .shipped none none),?_,by decide +kernel,⟨none,none,.inl rfl⟩,
      ⟨"line-a", "order-a",some "variant-1",2,1,0,0,0,none⟩,?_,rfl,by decide⟩⟩
  · exact mem_cons_of_mem _ mem_cons_self
  · decide +kernel
  · decide +kernel
  · exact mem_cons_of_mem _ (mem_cons_of_mem _ (mem_cons_of_mem _ mem_cons_self))
  · decide +kernel

/-- A whole order whose variant is out ships consistently. -/
theorem shipping_consistent_whole :
    ∃ (h : List (Event Desk DeskAction (StockResult Unit))) (d : Desk),
      Run deskStep (fun _ d a => Careful d a) sampleDesk h d∧(∀ e∈h, Consistent e) ∧
        shippedUnits d.store "order-a" "variant-1" = -2 := by
  have hot : ∀ (d : Desk) (a : DeskAction), shipments d a=[] →
      (∀ orderId, ¬ MovesWhole a orderId) → Careful d a := by
    intro d a hout hnot next _
    rw [hout]
    exact ⟨fun entry hent => absurd hent not_mem_nil,
      fun orderId hmvs => absurd hmvs (hnot orderId)⟩
  have hadm : Admitted deskStep (fun _ d a => Careful d a) [] sampleDesk
      [placed,.editVariant "variant-1" true false .physical,
        .fulfill "order-a" .shipped none none] := by
    refine ⟨hot _ _ rfl (by simp [MovesWhole,placed]),hot _ _ rfl (by simp [MovesWhole]),
      fun next _ => ⟨by decide +kernel,?_⟩,trivial⟩
    rintro orderId ⟨tracking,carrier,heq|heq⟩ hadv
    · cases heq
      exact absurd hadv (by decide +kernel)
    · cases heq
  have hpla := Run.nil.play _ hadm
  have hnum : Numbered sampleDesk := ⟨by decide,by simp [sampleDesk]⟩
  have hbou : Bounded sampleDesk.store := ⟨by decide,by simp [sampleDesk]⟩
  exact ⟨_,_,hpla,(shipping_consistent hnum hbou hpla).1,by decide +kernel⟩

end SellRight.ShippingConsistency
