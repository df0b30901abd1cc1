import SellRight.FallibleSteps
import SellRight.StockStore

/-!
# Taking open units

Cancelling, shipping, refunding and purging take open units from order lines
and subtract them from the stock rows of their variants. What such a step does
is said once: which units each line lost, what is left open, and what every
stock row lost. Sequences of such changes compose.
-/

namespace SellRight.StockRelease

open RowTable KeyedRecord OrderLifecycle StockStore
open List hiding lookup

/-- A line keeps edited units among the cancelled ones and shipped and
cancelled units within the ordered ones. -/
structure LineValid (line : OrderLine) : Prop where
  removed : line.editRemovedQty≤line.cancelledQty
  within : line.fulfilledQty+line.cancelledQty≤line.quantity

/-- What every reachable state of the tables satisfies. -/
structure Valid (s : Store) : Prop where
  lineIds : (s.lines.map OrderLine.id).Nodup
  stockIds : (s.stock.map StockRow.variantId).Nodup
  lines : ∀ line∈s.lines, LineValid line

/-- Open units of a line as an integer. -/
def openUnits (line : OrderLine) : ℤ := (line.quantity : ℤ)-line.fulfilledQty-line.cancelledQty

/-- Open units of the existing lines of a variant that were reserved at
placement. -/
def reservedOpen (s : Store) (variantId : String) : ℤ :=
  ((s.lines.filter fun line => decide (line.variantId=some variantId) &&
    decide (line.id∈s.reservedLines)).map openUnits).sum

def openShare (reserved : List String) (variantId : String) (line : OrderLine) : ℤ :=
  if decide (line.variantId=some variantId)&&decide (line.id∈reserved) then openUnits line
  else 0

theorem reservedOpen_eq (s : Store) (variantId : String) :
    reservedOpen s variantId=(s.lines.map (openShare s.reservedLines variantId)).sum :=
  sum_map_filter _ _ _

section
variable (reserved : List String) (variantId : String) (entries : List (OrderLine×ℕ))

/-- Units taken from reserved lines of a variant. -/
def reservedTaken : ℕ :=
  ((entries.filter fun entry => decide (entry.1.variantId=some variantId) &&
    decide (entry.1.id∈reserved)).map Prod.snd).sum

/-- Units taken from the other lines of a variant. -/
def unreservedTaken : ℕ :=
  ((entries.filter fun entry => decide (entry.1.variantId=some variantId) &&
    !decide (entry.1.id∈reserved)).map Prod.snd).sum

end

def unitsTaken (variantId : String) (entries : List (OrderLine×ℕ)) : ℕ :=
  ((entries.filter fun entry => decide (entry.1.variantId=some variantId)).map Prod.snd).sum

theorem unitsTaken_eq (reserved : List String) (variantId : String)
    (entries : List (OrderLine×ℕ)) :
    unitsTaken variantId entries =
      reservedTaken reserved variantId entries+unreservedTaken reserved variantId entries := by
  induction entries with
  | nil => rfl
  | cons entry _ ih =>
    simp only [unitsTaken,reservedTaken,unreservedTaken,filter_cons] at ih ⊢
    by_cases hvar : entry.1.variantId=some variantId
    · by_cases hres : entry.1.id∈reserved
      · simp only [hvar,hres,decide_true,Bool.and_self,if_true,Bool.not_true,
          Bool.and_false,Bool.false_eq_true,if_false,map_cons,sum_cons,ih]
        omega
      · simp only [hvar,hres,decide_true,decide_false,Bool.and_false,
          Bool.false_eq_true,if_false,Bool.not_false,Bool.and_self,if_true,map_cons,
          sum_cons,ih]
        omega
    · simpa [hvar] using ih

/-- A line after a step: shipped and cancelled units only grow. -/
structure LineStep (line after : OrderLine) : Prop where
  id : after.id=line.id
  order : after.orderId=line.orderId
  quantity : after.quantity=line.quantity
  removed : after.editRemovedQty=line.editRemovedQty
  fulfilled : line.fulfilledQty≤after.fulfilledQty

/-- Nothing happened to a line. -/
theorem LineStep.refl (line : OrderLine) : LineStep line line := ⟨rfl,rfl,rfl,rfl,le_refl _⟩

theorem LineStep.trans {line middle after : OrderLine} (hfst : LineStep line middle)
    (hsec : LineStep middle after) : LineStep line after :=
  ⟨hsec.id.trans hfst.id,hsec.order.trans hfst.order,
    hsec.quantity.trans hfst.quantity,hsec.removed.trans hfst.removed,
    hfst.fulfilled.trans hsec.fulfilled⟩

/-- Lines come from lines, and only touched ones differ. -/
def LinesStep (before after : List OrderLine) (touched : List String) : Prop :=
  ∀ line'∈after, ∃ line∈before, LineStep line line'∧(line'=line∨line.id∈touched)

theorem LinesStep.subset {before after : List OrderLine} (hsub : ∀ line∈after, line∈before)
    (touched : List String) : LinesStep before after touched :=
  fun line hln => ⟨line,hsub line hln,.refl line,.inl rfl⟩

/-- A step took units from lines and from stock. -/
structure Released (s next : Store) (entries : List (OrderLine×ℕ)) : Prop where
  reserved : next.reservedLines=s.reservedLines
  valid : Valid next
  lines : LinesStep s.lines next.lines (entries.map fun entry => entry.1.id)
  opened : ∀ variantId, reservedOpen next variantId =
    reservedOpen s variantId-reservedTaken s.reservedLines variantId entries
  /-- Stock rows lose the taken units, never below zero. -/
  stock : ∃ write : StockRow → StockRow, next.stock=s.stock.map write ∧
    ∀ row, (write row).variantId=row.variantId ∧
      (write row).allocated=row.allocated-unitsTaken row.variantId entries ∧
      (row.allocated≤row.onHand→(write row).allocated≤(write row).onHand)

variable {next : Store} {write : OrderLine → OrderLine}

/-- Nothing was taken. -/
theorem Released.none {s : Store} (hval : Valid s) (hlns : next.lines=s.lines)
    (hsto : next.stock=s.stock) (hres : next.reservedLines=s.reservedLines) :
    Released s next [] where
  reserved := hres
  valid := ⟨hlns ▸ hval.lineIds,hsto ▸ hval.stockIds,hlns ▸ hval.lines⟩
  lines := .subset (fun _ hln => hlns ▸ hln) _
  opened := by
    intro variantId
    rw [reservedOpen,reservedOpen,hlns,hres]
    simp [reservedTaken]
  stock := ⟨id,by rw [hsto,map_id],fun row => ⟨rfl,rfl,fun h => h⟩⟩

/-- Taking units twice takes the units of both. -/
theorem Released.trans {s middle : Store} {first second : List (OrderLine×ℕ)}
    (hfst : Released s middle first) (hsec : Released middle next second) :
    Released s next (first++second) where
  reserved := hsec.reserved.trans hfst.reserved
  valid := hsec.valid
  lines := by
    intro line hln
    obtain ⟨middle',hmid,hstep,htou⟩ := hsec.lines line hln
    obtain ⟨old,hold,hste',htou'⟩ := hfst.lines middle' hmid
    refine ⟨old,hold,hste'.trans hstep,?_⟩
    rw [map_append,mem_append]
    rcases htou with rfl|htou
    · exact htou'.imp id .inl
    · exact .inr (.inr (hste'.id ▸ htou))
  opened := by
    intro variantId
    rw [hsec.opened,hfst.opened,hfst.reserved,reservedTaken,reservedTaken,reservedTaken,
      filter_append,map_append,sum_append]
    push_cast
    ring
  stock := by
    obtain ⟨write,hwri,hone⟩ := hfst.stock
    obtain ⟨again,haga,htwo⟩ := hsec.stock
    refine ⟨again ∘ write,by rw [haga,hwri,map_map],?_⟩
    intro row
    obtain ⟨hid,hall,hbou⟩ := hone row
    obtain ⟨hid',hall',hbou'⟩ := htwo (write row)
    refine ⟨hid'.trans hid,?_,fun h => hbou' (hbou h)⟩
    change (again (write row)).allocated=_
    rw [hall',hall,hid,unitsTaken,unitsTaken,unitsTaken,filter_append,
      map_append,sum_append,Nat.sub_sub]

/-- A rewrite of a line takes units from it. -/
structure TakesUnits (write : OrderLine → OrderLine) (line : OrderLine) (units : ℕ) : Prop where
  id : (write line).id=line.id
  order : (write line).orderId=line.orderId
  variant : (write line).variantId=line.variantId
  quantity : (write line).quantity=line.quantity
  removed : (write line).editRemovedQty=line.editRemovedQty
  cancelled : line.cancelledQty≤(write line).cancelledQty
  fulfilled : line.fulfilledQty≤(write line).fulfilledQty
  taken : (write line).fulfilledQty+(write line).cancelledQty =
    line.fulfilledQty+line.cancelledQty+units

/-- A rewrite of a stock row loses units. -/
structure LosesUnits (write : StockRow → StockRow) (units : ℕ) : Prop where
  variant : ∀ row, (write row).variantId=row.variantId
  allocated : ∀ row, (write row).allocated=row.allocated-units
  covered : ∀ row, row.allocated≤row.onHand→(write row).allocated≤(write row).onHand

theorem releaseUnits_loses (units : ℕ) : LosesUnits (releaseUnits units) units where
  variant := fun _ => rfl
  allocated := fun _ => rfl
  covered := by
    intro row hrow
    change row.allocated-units≤row.onHand
    omega

theorem shipUnits_loses (units : ℕ) : LosesUnits (shipUnits units) units where
  variant := fun _ => rfl
  allocated := fun _ => rfl
  covered := by
    intro row hrow
    change row.allocated-units≤row.onHand-units
    omega

section Lines

variable {s : Store} {line : OrderLine}

/-- A line of the table is found under its id. -/
theorem Valid.line_eq (hval : Valid s) {other : OrderLine} (hln : line∈s.lines)
    (hot : other∈s.lines) (hid : other.id=line.id) : other=line :=
  eq_of_key_eq OrderLine.id hval.lineIds hot hln hid

/-- Rewriting lines that exist keeps the tables valid. -/
theorem Valid.writeLine (hval : Valid s) (hln : line∈s.lines)
    {units : ℕ} (hwri : TakesUnits write line units)
    (hun : units≤line.openQty) : Valid (writeLine s line.id write) where
  lineIds := by
    have hids : (updateWhere (fun row => decide (row.id=line.id)) write s.lines).map OrderLine.id =
        s.lines.map OrderLine.id := by
      rw [updateWhere,map_map]
      apply map_congr_left
      intro row hrow
      change (if decide (row.id=line.id)=true then write row else row).id=row.id
      by_cases heq : row.id=line.id
      · rw [if_pos (by simpa using heq),hval.line_eq hln hrow heq,hwri.id]
      · rw [if_neg (by simpa using heq)]
    exact hids ▸ hval.lineIds
  stockIds := hval.stockIds
  lines := by
    intro row hrow
    rcases mem_updateWhere.mp hrow with ⟨old,hold,hmt,rfl⟩|⟨hold,-⟩
    · obtain rfl := hval.line_eq hln hold (by simpa using hmt)
      have hold' := hval.lines old hold
      constructor
      · rw [hwri.removed]
        exact hold'.removed.trans hwri.cancelled
      rw [hwri.taken,hwri.quantity]
      have hwit := hold'.within
      rw [OrderLine.openQty] at hun
      omega
    · exact hval.lines row hold

theorem reservedOpen_writeLine (hval : Valid s) (hln : line∈s.lines)
    {units : ℕ} (hwri : TakesUnits write line units) (variantId : String) :
    reservedOpen (writeLine s line.id write) variantId =
      reservedOpen s variantId-reservedTaken s.reservedLines variantId [(line,units)] := by
  have hop : openUnits (write line)=openUnits line-units := by
    have htk := hwri.taken
    rw [openUnits,openUnits,hwri.quantity]
    omega
  rw [reservedOpen_eq,reservedOpen_eq,StockStore.writeLine,
    sum_update_key OrderLine.id _ hval.lineIds hln]
  simp only [openShare,reservedTaken,hwri.variant,hwri.id,hop,filter_cons,filter_nil]
  split
  · simp only [map_cons,map_nil,sum_cons,sum_nil]
    push_cast
    ring
  · simp

/-- Lines other than the rewritten one stay in the table. -/
theorem mem_writeLine {other : OrderLine} (hot : other∈s.lines) (hne : other.id≠line.id)
    (write : OrderLine → OrderLine) : other∈(writeLine s line.id write).lines :=
  mem_updateWhere.mpr (.inr ⟨hot,by simpa using hne⟩)

/-- Rewriting a line touches no other. -/
theorem lines_writeLine (hval : Valid s) (hln : line∈s.lines)
    {units : ℕ} (hwri : TakesUnits write line units) :
    LinesStep s.lines (writeLine s line.id write).lines [line.id] := by
  intro after haft
  rcases mem_updateWhere.mp haft with ⟨old,hold,hmt,rfl⟩|⟨hold,-⟩
  · obtain rfl := hval.line_eq hln hold (by simpa using hmt)
    exact ⟨old,hold,⟨hwri.id,hwri.order,hwri.quantity,hwri.removed,hwri.fulfilled⟩,
      .inr (mem_singleton_self _)⟩
  · exact ⟨after,hold,.refl after,.inl rfl⟩

section
variable (hval : Valid s) (hln : line∈s.lines) {units : ℕ}
variable (hwri : TakesUnits write line units) (hun : units≤line.openQty)
include hval hln hwri hun

theorem released_variant {variantId : String} (hvar : line.variantId=some variantId)
    {stockWrite : StockRow → StockRow} (hsto : LosesUnits stockWrite units)
    (hlns : next.lines=(writeLine s line.id write).lines)
    (hrs : next.stock=(writeStock s variantId stockWrite).stock)
    (hres : next.reservedLines=s.reservedLines) : Released s next [(line,units)] where
  reserved := hres
  valid := by
    have hwrit := hval.writeLine hln hwri hun
    refine ⟨hlns ▸ hwrit.lineIds,?_,hlns ▸ hwrit.lines⟩
    rw [hrs,writeStock,map_updateWhere StockRow.variantId s.stock fun row _ => hsto.variant row]
    exact hval.stockIds
  lines := hlns ▸ lines_writeLine hval hln hwri
  opened := by
    intro id
    rw [← reservedOpen_writeLine hval hln hwri id,reservedOpen,reservedOpen,hlns,hres]
    rfl
  stock := by
    refine ⟨fun row => if decide (row.variantId=variantId) then stockWrite row else row,hrs,?_⟩
    intro row
    simp only [unitsTaken,filter_cons,filter_nil,hvar]
    by_cases hrow : row.variantId=variantId
    · rw [if_pos (by simpa using hrow),if_pos (by simp [hrow])]
      exact ⟨hsto.variant row,by simpa using hsto.allocated row,hsto.covered row⟩
    · rw [if_neg (by simpa using hrow),if_neg (by simp [Ne.symm hrow])]
      exact ⟨rfl,rfl,fun h => h⟩

theorem released_detached (hvar : line.variantId=none) :
    Released s (writeLine s line.id write) [(line,units)] where
  reserved := rfl
  valid := hval.writeLine hln hwri hun
  lines := lines_writeLine hval hln hwri
  opened := reservedOpen_writeLine hval hln hwri
  stock := by
    refine ⟨id,(map_id _).symm,?_⟩
    simp [unitsTaken,hvar]

end

end Lines

section Loops

variable {α : Type} {s : Store}

/-- No units taken from a line changes nothing. -/
theorem Released.zero (hval : Valid s) (line : OrderLine) {units : ℕ} (hz : units=0) :
    Released s s [(line,units)] where
  reserved := rfl
  valid := hval
  lines := .subset (fun _ hln => hln) _
  opened := by
    intro variantId
    simp only [hz,reservedTaken,filter_cons,filter_nil]
    split <;> simp
  stock := by
    refine ⟨id,(map_id _).symm,?_⟩
    intro row
    simp only [hz,unitsTaken,filter_cons,filter_nil]
    split <;> simp

/-- One round of a loop takes the units of its entry and keeps the other
lines. -/
def Takes (step : Store → α → Store) (entry : α → OrderLine×ℕ) : Prop :=
  ∀ s item, Valid s→(entry item).1∈s.lines→(entry item).2≤(entry item).1.openQty →
    Released s (step s item) [entry item] ∧
      ∀ other∈s.lines, other.id≠(entry item).1.id → other∈(step s item).lines

/-- A loop over distinct lines takes the units of all its entries. -/
theorem released_foldl {step : Store → α → Store} {entry : α → OrderLine×ℕ}
    (hstep : Takes step entry) {items : List α} (hval : Valid s)
    (hmem : ∀ item∈items, (entry item).1∈s.lines∧(entry item).2≤(entry item).1.openQty)
    (hdis : (items.map fun item => (entry item).1.id).Nodup) :
    Released s (items.foldl step s) (items.map entry) := by
  induction items generalizing s with
  | nil => exact .none hval rfl rfl rfl
  | cons item items ih =>
    obtain ⟨hln,hun⟩ := hmem item (by simp)
    obtain ⟨hone,hoth⟩ := hstep s item hval hln hun
    rw [map_cons,nodup_cons] at hdis
    have hrt : ∀ other∈items, (entry other).1∈(step s item).lines ∧
        (entry other).2≤(entry other).1.openQty := by
      intro other hot
      obtain ⟨hmem',hun'⟩ := hmem other (mem_cons_of_mem _ hot)
      refine ⟨hoth _ hmem' ?_,hun'⟩
      intro heq
      exact hdis.1 (heq ▸ mem_map_of_mem (f := fun item => (entry item).1.id) hot)
    exact hone.trans (ih hone.valid hrt hdis.2)

variable {line : OrderLine}

theorem LineValid.open_eq (hln : LineValid line) :
    line.fulfilledQty+line.cancelledQty+line.openQty=line.quantity := by
  have hwit := hln.within
  rw [OrderLine.openQty]
  omega

theorem cancelLine_takes : Takes cancelLine fun line => (line,line.openQty) := by
  intro s line hval hln hun
  have hwri : TakesUnits (fun row => {row with cancelledQty := row.cancelledQty+line.openQty})
      line line.openQty :=
    ⟨rfl,rfl,rfl,rfl,rfl,Nat.le_add_right _ _,le_refl _,by simp only; omega⟩
  rw [cancelLine]
  split
  · split
    · next variantId hvar =>
      exact ⟨released_variant hval hln hwri hun hvar (releaseUnits_loses _) rfl rfl rfl,
        fun other hot hne => mem_writeLine hot hne _⟩
    · next hvar =>
      exact ⟨released_detached hval hln hwri hun hvar,fun other hot hne => mem_writeLine hot hne _⟩
  · exact ⟨.zero hval line (by omega),fun other hot _ => hot⟩

/-- Shipping some units of a line takes them. -/
theorem shipPart_takes : Takes shipPart fun entry => entry := by
  intro s entry hval hln hun
  have hwri : TakesUnits (fun row => {row with fulfilledQty := row.fulfilledQty+entry.2})
      entry.1 entry.2 :=
    ⟨rfl,rfl,rfl,rfl,rfl,le_refl _,by simp only; omega,by simp only; omega⟩
  rw [shipPart]
  split
  · next variantId hvar =>
    exact ⟨released_variant hval hln hwri hun hvar (shipUnits_loses _) rfl rfl rfl,
      fun other hot hne => mem_writeLine hot hne _⟩
  · next hvar =>
    exact ⟨released_detached hval hln hwri hun hvar,fun other hot hne => mem_writeLine hot hne _⟩

/-- Two rewrites that agree on a line rewrite the table alike. -/
theorem writeLine_congr (hids : (s.lines.map OrderLine.id).Nodup)
    (hln : line∈s.lines) {f g : OrderLine → OrderLine} (heq : f line=g line) :
    writeLine s line.id f=writeLine s line.id g := by
  unfold writeLine updateWhere
  congr 1
  refine map_congr_left fun row hrow => ?_
  by_cases hid : row.id=line.id
  · rw [eq_of_key_eq OrderLine.id hids hrow hln hid,heq]
  · rw [if_neg (by simpa using hid),if_neg (by simpa using hid)]

/-- Shipping a line ships what is open of it. -/
theorem shipLine_eq (hids : (s.lines.map OrderLine.id).Nodup)
    (hln : line∈s.lines) (hwit : line.fulfilledQty+line.cancelledQty≤line.quantity) :
    shipLine s line=if 0<line.openQty then shipPart s (line,line.openQty) else s := by
  have hqty : line.quantity-line.cancelledQty=line.fulfilledQty+line.openQty := by
    unfold OrderLine.openQty
    omega
  have heq : writeLine s line.id (fun row =>
      {row with fulfilledQty := line.quantity-line.cancelledQty})=writeLine s line.id
        (fun row => {row with fulfilledQty := row.fulfilledQty+line.openQty}) :=
    writeLine_congr hids hln (by rw [hqty])
  unfold shipLine shipPart
  rw [heq]

theorem shipLine_takes : Takes shipLine fun line => (line,line.openQty) := by
  intro s line hval hln hun
  rw [shipLine_eq hval.lineIds hln (hval.lines line hln).within]
  split
  · exact shipPart_takes s (line,line.openQty) hval hln hun
  · next hz => exact ⟨.zero hval line (Nat.eq_zero_of_not_pos hz),fun other hot _ => hot⟩

/-- Lines of an order with their open units. -/
def openEntries (s : Store) (orderId : String) : List (OrderLine×ℕ) :=
  (linesOf s orderId).map fun line => (line,line.openQty)

theorem released_order {step : Store → OrderLine → Store}
    (hstep : Takes step fun line => (line,line.openQty)) (hval : Valid s) (orderId : String) :
    Released s ((linesOf s orderId).foldl step s) (openEntries s orderId) := by
  refine released_foldl hstep hval (fun line hln => ⟨mem_of_mem_filter hln,le_refl _⟩) ?_
  exact hval.lineIds.sublist (filter_sublist.map OrderLine.id)

theorem checkShipment_spec {lines : List OrderLine} {items : List FulfillmentItem}
    {seen : List String} {entries : List (OrderLine×ℕ)}
    (hck : checkShipment lines items seen=some entries) :
    (∀ entry∈entries, entry.1∈lines∧entry.2≤entry.1.openQty∧entry.1.id∉seen) ∧
      (entries.map fun entry => entry.1.id).Nodup := by
  induction items generalizing seen entries with
  | nil =>
    cases hck
    simp
  | cons item _ ih =>
    rw [checkShipment] at hck
    split_ifs at hck with hfre
    split at hck
    · cases hck
    · next line hfin =>
      have hid : line.id=item.orderLineId := by simpa using find?_some hfin
      split_ifs at hck with heno
      obtain ⟨rest,hrt,rfl⟩ := Option.map_eq_some_iff.mp hck
      obtain ⟨hmem,hdis⟩ := ih hrt
      constructor
      · intro entry hent
        rcases mem_cons.mp hent with rfl|hent
        · exact ⟨mem_of_find?_eq_some hfin,by simpa using heno,hid ▸ hfre⟩
        · obtain ⟨hln,hun,huns⟩ := hmem entry hent
          exact ⟨hln,hun,fun hsee => huns (mem_append_left _ hsee)⟩
      · rw [map_cons,nodup_cons]
        refine ⟨?_,hdis⟩
        intro haga
        obtain ⟨entry,hent,heq⟩ := mem_map.mp haga
        have huns := (hmem entry hent).2.2
        exact huns (by rw [heq,hid]; exact mem_append_right _ (by simp))

/-- Units a refund line cancels. -/
def unfulfilledUnits (line : RefundLine) (row : OrderLine) : ℕ :=
  min line.currentQuantity row.openQty

/-- Lines a refund takes units from, each as it is when its turn comes. -/
def refundEntries (orderId : String) : Store → List RefundLine → List (OrderLine×ℕ)
  | _, [] => []
  | s, line::lines =>
    match s.lines.find? fun row => row.id=line.orderLineId with
    | none => []
    | some row => (row,unfulfilledUnits line row) ::
      (match refundLineEffect orderId s line with
        | .ok next => refundEntries orderId next lines
        | .error _ => [])

/-- Releasing nothing leaves a stock row as it was. -/
theorem writeStock_zero (s : Store) (variantId : String) :
    writeStock s variantId (releaseUnits 0)=s := by
  have hsto : updateWhere (fun row => decide (row.variantId=variantId)) (releaseUnits 0) s.stock =
      s.stock := by
    conv_rhs => rw [← map_id s.stock]
    apply map_congr_left
    intro row _
    split <;> rfl
  rw [writeStock,hsto]

/-- Putting units on hand takes none. -/
theorem released_restock (hval : Valid s) (variantId : String) (units : ℕ)
    (hlns : next.lines=s.lines) (hres : next.reservedLines=s.reservedLines)
    (hrs : next.stock=(writeStock s variantId (restockUnits units)).stock) :
    Released s next [] where
  reserved := hres
  valid := by
    refine ⟨hlns ▸ hval.lineIds,?_,hlns ▸ hval.lines⟩
    have hids : (writeStock s variantId (restockUnits units)).stock.map StockRow.variantId =
        s.stock.map StockRow.variantId := map_updateWhere _ _ fun _ _ => rfl
    rw [hrs,hids]
    exact hval.stockIds
  lines := .subset (fun _ hln => hlns ▸ hln) _
  opened := by
    intro id
    rw [reservedOpen,reservedOpen,hlns,hres]
    simp [reservedTaken]
  stock := by
    refine ⟨fun row => if decide (row.variantId=variantId) then restockUnits units row else row,
      hrs,?_⟩
    intro row
    simp only [unitsTaken,filter_nil]
    by_cases hrow : row.variantId=variantId
    · rw [if_pos (by simpa using hrow)]
      exact ⟨rfl,rfl,fun h => h.trans (Nat.le_add_right _ _)⟩
    · rw [if_neg (by simpa using hrow)]
      exact ⟨rfl,rfl,fun h => h⟩

/-- The line of a refund, with what it refunds and cancels counted. -/
def countedLine (s : Store) (line : RefundLine) (row : OrderLine) : Store :=
  writeLine s row.id fun old => {old with
    refundedQty := old.refundedQty+line.quantity
    cancelledQty := old.cancelledQty+unfulfilledUnits line row}

/-- The units that a refund line cancels are given back to the variant. -/
def releasedLine (s : Store) (line : RefundLine) (row : OrderLine) (variantId : String) : Store :=
  writeStock (countedLine s line row) variantId (releaseUnits (unfulfilledUnits line row))

variable {orderId : String}

/-- What an applied refund line did: it counted, released and put back. -/
theorem refundLineEffect_ok {line : RefundLine}
    (heff : refundLineEffect orderId s line=.ok next) :
    ∃ row, s.lines.find? (fun row => row.id=line.orderLineId)=some row∧row∈s.lines ∧
      row.id=line.orderLineId∧row.orderId=orderId ∧
      (row.variantId=none∧next=countedLine s line row∨∃ v, row.variantId=some v ∧
        ((line.restock∧0<line.currentQuantity-unfulfilledUnits line row ∧
            next={writeStock (releasedLine s line row v) v
                (restockUnits (line.currentQuantity-unfulfilledUnits line row)) with
              movements := s.movements++[⟨v,(line.currentQuantity-unfulfilledUnits line row : ℕ),
                .refundRestock,some orderId,some row.id⟩]}) ∨
          (¬ (line.restock∧0<line.currentQuantity-unfulfilledUnits line row) ∧
            next=releasedLine s line row v))) := by
  unfold refundLineEffect at heff
  split at heff
  · cases heff
  · next row hfin =>
    split_ifs at heff with hord
    refine ⟨row,hfin,mem_of_find?_eq_some hfin,by simpa using find?_some hfin,
      not_not.mp hord,?_⟩
    have hrel : ∀ v, releasedLine s line row v=if 0 < unfulfilledUnits line row then
        writeStock (countedLine s line row) v (releaseUnits (unfulfilledUnits line row))
        else countedLine s line row := by
      intro v
      split
      · rfl
      · next hz => rw [releasedLine,Nat.eq_zero_of_not_pos hz,writeStock_zero]
    dsimp only at heff
    split at heff
    · next hvar =>
      cases heff
      exact .inl ⟨hvar,rfl⟩
    · next v hvar =>
      refine .inr ⟨v,hvar,?_⟩
      have hmv : s.movements=(releasedLine s line row v).movements := rfl
      rw [hmv,hrel v]
      split at heff
      · next hbk =>
        cases heff
        exact .inl ⟨hbk.1,hbk.2,rfl⟩
      · next hbk =>
        cases heff
        exact .inr ⟨hbk,rfl⟩

theorem refundLineEffect_released {line : RefundLine}
    (hval : Valid s) (heff : refundLineEffect orderId s line=.ok next) :
    ∃ row, s.lines.find? (fun row => row.id=line.orderLineId)=some row∧row∈s.lines ∧
      row.id=line.orderLineId∧row.orderId=orderId ∧
      Released s next [(row,unfulfilledUnits line row)] := by
  obtain ⟨row,hfin,hmem,hid,hord,hcas⟩ := refundLineEffect_ok heff
  refine ⟨row,hfin,hmem,hid,hord,?_⟩
  have hun : unfulfilledUnits line row≤row.openQty := Nat.min_le_right _ _
  have hwri : TakesUnits (fun old => {old with
      refundedQty := old.refundedQty+line.quantity
      cancelledQty := old.cancelledQty+unfulfilledUnits line row}) row
      (unfulfilledUnits line row) :=
    ⟨rfl,rfl,rfl,rfl,rfl,Nat.le_add_right _ _,le_refl _,by simp only; omega⟩
  rcases hcas with ⟨hvar,rfl⟩|⟨v,hvar,hback⟩
  · exact released_detached hval hmem hwri hun hvar
  · have hmid : Released s (releasedLine s line row v) [(row,unfulfilledUnits line row)] :=
      released_variant hval hmem hwri hun hvar (releaseUnits_loses _) rfl rfl rfl
    rcases hback with ⟨-,-,rfl⟩|⟨-,rfl⟩
    · exact hmid.trans (released_restock hmid.valid v _ rfl rfl rfl)
    · exact hmid

/-- Applying the lines of a refund takes their unfulfilled units. -/
theorem refundLines_released {lines : List RefundLine}
    (hval : Valid s) (heff : lines.foldlM (refundLineEffect orderId) s=.ok next) :
    Released s next (refundEntries orderId s lines) := by
  induction lines generalizing s with
  | nil =>
    cases heff
    exact .none hval rfl rfl rfl
  | cons _ _ ih =>
    rw [foldlM_cons,FallibleSteps.bind_eq_ok] at heff
    obtain ⟨middle,heffe,hrt⟩ := heff
    obtain ⟨row,hfin,-,-,-,hone⟩ := refundLineEffect_released hval heffe
    rw [refundEntries,hfin]
    simp only [heffe]
    exact hone.trans (ih hone.valid hrt)

theorem heldUnits_get (lines : List OrderLine) (variantId : String) :
    ((heldUnits lines).get variantId).getD 0 =
      unitsTaken variantId (lines.map fun line => (line,line.openQty)) := by
  have hgen : ∀ (lines : List OrderLine) (held : Record String ℕ),
      ((lines.foldl holdLine held).get variantId).getD 0=(held.get variantId).getD 0 +
        unitsTaken variantId (lines.map fun line => (line,line.openQty)) := by
    intro lines
    induction lines with
    | nil => intro held; rfl
    | cons line _ ih =>
      intro held
      rw [foldl_cons,ih]
      simp only [unitsTaken,map_cons,filter_cons,holdLine]
      cases hvar : line.variantId with
      | none => simp
      | some own =>
        by_cases hop : 0<line.openQty
        · by_cases heq : own=variantId
          · subst heq
            simp only [if_pos hop,Record.get_set,if_true,Option.getD_some,decide_true,
              map_cons,sum_cons]
            omega
          · simp [hop,Record.get_set,heq,Ne.symm heq]
        · have hz : line.openQty=0 := by omega
          by_cases heq : own=variantId
          · simp [hz,heq]
          · simp [hz,heq]
  rw [heldUnits,hgen]
  simp [Record.empty,Record.get,lookup]

end Loops

end SellRight.StockRelease
