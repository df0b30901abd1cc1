import SellRight.PromotionStackSteps

/-!
# Stages of the promotion stack

Whatever stages do in whatever order, the merchandise changes by what the recorded
allocations took off, and the rest of every recorded amount was taken off shipping.
-/

namespace SellRight.PromotionStackStages

open PromotionStack PromotionStackSteps FallibleSteps List
open LegacyTotalsLaws (roundHalfUp_mono roundHalfUp_intCast)

variable {safe : Prop}

/-- Change of the merchandise by a promotion. -/
def taken (entry : AppliedPromotion) : ℤ := (entry.lineAllocations.map LineAllocation.amount).sum

/-- Part of the amount of a promotion that is not merchandise. -/
def shippingPart (entry : AppliedPromotion) : ℤ := entry.amount-taken entry

/-- The allocation takes its amount off the units of a line. -/
structure Fair (inputs : List StackLine) (a : LineAllocation) : Prop where
  takes : Takes a
  line : ∃ l∈inputs, l.key=a.lineKey∧(a.units.length : ℤ)=l.quantity
  sum : a.units.sum=a.amount

theorem addUnits_returns (units others : List ℤ) : Returns safe (fun r => r.length=units.length ∧
      (units.length=others.length → r.sum=units.sum+others.sum) ∧
      ((∀ unit∈units, unit≤0)→(∀ unit∈others, unit≤0)→∀ unit∈r, unit≤0))
      (addUnits units others) := by
  induction units generalizing others with
  | nil =>
    refine .ok ⟨rfl,fun h => ?_,nofun⟩
    rw [length_eq_zero_iff.mp h.symm]
    rfl
  | cons _ _ ih =>
    unfold addUnits
    refine (sum_returns _).bind fun first hfst => (ih others.tail).bind fun rest hrt => ?_
    obtain ⟨hlen,hsum,hnon⟩ := hrt
    simp only [sum_cons,sum_nil,add_zero] at hfst
    refine Meets.ok ⟨by rw [length_cons,length_cons,hlen],fun h => ?_,?_⟩
    · cases others with
      | nil => cases h
      | cons =>
        rw [sum_cons,hsum (Nat.succ.inj h),hfst,sum_cons,sum_cons]
        simp only [headD_cons,tail_cons]
        ring
    · intro hun hoth x hx
      cases hx with
      | head =>
        rw [hfst]
        refine add_nonpos (hun _ mem_cons_self) ?_
        cases others with
        | nil => exact le_rfl
        | cons => exact hoth _ mem_cons_self
      | tail _ hx =>
        exact hnon (fun y hy => hun y (mem_cons_of_mem _ hy))
          (fun y hy => hoth y (mem_of_mem_tail hy)) x hx

variable {a : LineAllocation} {c : Pricing} {allocations : List LineAllocation}
  {applied : List AppliedPromotion} {ledger : Ledger} {p : ResolvedPromotion}
  {lines : List WorkingLine}

section Merge

variable {inputs : List StackLine} (hkeys : (inputs.map StackLine.key).Nodup)
include hkeys

theorem add_returns {b : LineAllocation} (ha : Fair inputs a) (hb : Fair inputs b)
    (hkey : a.lineKey=b.lineKey) :
    Returns safe (fun r => Fair inputs r∧r.amount=a.amount+b.amount) (a.add b) := by
  obtain ⟨l,hl,hlke,hlen⟩ := ha.line
  obtain ⟨l',hl',hlke',hlen'⟩ := hb.line
  obtain rfl : l=l' := inj_on_of_nodup_map hkeys hl hl' (by rw [hlke,hkey,hlke'])
  have hun : a.units.length=b.units.length := by omega
  unfold LineAllocation.add
  refine (sum_returns _).bind fun amount hamo => ?_
  refine (addUnits_returns _ _).bind fun units had => ?_
  refine (sum_returns _).bind fun source hsou => ?_
  refine (addUnits_returns _ _).bind fun sourceUnits hadd => ?_
  refine (sum_returns _).bind fun discount hdis => (sum_returns _).bind fun withTax hwit => ?_
  simp only [sum_cons,sum_nil,add_zero] at hamo hsou hdis hwit
  have hta := ha.takes
  have htb := hb.takes
  refine .ok ⟨⟨⟨?_,had.2.2 hta.units htb.units,?_,
    hadd.2.2 hta.sourceUnits htb.sourceUnits,?_,?_⟩,?_,?_⟩,hamo⟩
  · exact hamo.trans_le (add_nonpos hta.amount htb.amount)
  · exact hsou.trans_le (add_nonpos hta.source htb.source)
  · exact hdis.trans_le (add_nonpos hta.discount htb.discount)
  · exact hwit.trans_le (add_nonpos hta.withTax htb.withTax)
  · exact ⟨l,hl,hlke,by rw [had.1,hlen]⟩
  · rw [had.2.1 hun,ha.sum,hb.sum,hamo]

theorem mergeAllocation_returns {all : List LineAllocation}
    (hall : ∀ b∈all, Fair inputs b) (ha : Fair inputs a) :
    Returns safe (fun r => (∀ b∈r, Fair inputs b) ∧
      (r.map LineAllocation.amount).sum=(all.map LineAllocation.amount).sum+a.amount)
      (mergeAllocation all a) := by
  induction all with
  | nil => exact .ok ⟨fun b hb => mem_singleton.mp hb ▸ ha,by simp⟩
  | cons b _ ih =>
    obtain ⟨hb,hrt⟩ := forall_mem_cons.mp hall
    unfold mergeAllocation
    split_ifs with hkey
    · refine (add_returns hkeys hb ha hkey).bind fun merged hmer => ?_
      refine .ok ⟨forall_mem_cons.mpr ⟨hmer.1,hrt⟩,?_⟩
      rw [map_cons,sum_cons,hmer.2,map_cons,sum_cons]
      ring
    · refine (ih hrt).bind fun others hoth => ?_
      refine .ok ⟨forall_mem_cons.mpr ⟨hb,hoth.1⟩,?_⟩
      rw [map_cons,sum_cons,hoth.2,map_cons,sum_cons]
      ring

theorem mergeAll_returns {all added : List LineAllocation} (hall : ∀ b∈all, Fair inputs b)
    (had : ∀ b∈added, Fair inputs b) :
    Returns safe (fun r => (∀ b∈r, Fair inputs b)∧(r.map LineAllocation.amount).sum=
      (all.map LineAllocation.amount).sum+(added.map LineAllocation.amount).sum)
      (added.foldlM mergeAllocation all) := by
  induction added generalizing all with
  | nil => exact .ok ⟨hall,by simp⟩
  | cons _ _ ih =>
    obtain ⟨ha,hrt⟩ := forall_mem_cons.mp had
    rw [foldlM_cons]
    refine (mergeAllocation_returns hkeys hall ha).bind fun merged hmer => ?_
    refine (ih hmer.1 hrt).mono fun r hr => ⟨hr.1,?_⟩
    rw [hr.2,hmer.2,map_cons,sum_cons]
    ring

end Merge

/-- What recorded promotions keep: fair allocations, a promotion they are of, and with
imported shipping the part that is not merchandise. -/
structure EntryOk (c : Pricing) (entry : AppliedPromotion) : Prop where
  fair : ∀ a∈entry.lineAllocations, Fair c.input.lines a
  shipping : c.input.retainedShipping.isSome=true →
    entry.shippingAdjustment.elim 0 Prod.fst=shippingPart entry
  owner : ∃ p∈c.promotions, p.id=entry.promotionId∧p.kind=entry.kind

/-- A change of an entry: allocations, their amount, and the other part. -/
structure Moved (c : Pricing) (allocations : List LineAllocation) (merchandise other : ℤ)
    (entry changed : AppliedPromotion) : Prop where
  ok : EntryOk c changed
  taken : taken changed=taken entry+merchandise
  part : shippingPart changed=shippingPart entry+other
  id : changed.promotionId=entry.promotionId
  merged : allocations.foldlM mergeAllocation entry.lineAllocations=.ok changed.lineAllocations

/-- Only the entry of one promotion is new or has new allocations. -/
def Recorded (id : String) (allocations : List LineAllocation)
    (applied changed : List AppliedPromotion) : Prop :=
  ∀ entry∈changed, entry∈applied∨entry.promotionId=id∧∃ start,
    allocations.foldlM mergeAllocation start=.ok entry.lineAllocations ∧
      (start=[]∨∃ old∈applied, old.promotionId=id∧old.lineAllocations=start)

/-- The books of a ledger. -/
structure Booked (c : Pricing) (merchandise other : ℤ) (ledger : Ledger) : Prop where
  entries : ∀ entry∈ledger.applied, EntryOk c entry
  ids : (ledger.applied.map AppliedPromotion.promotionId).Nodup
  taken : (ledger.applied.map taken).sum=merchandise
  parts : (ledger.applied.map shippingPart).sum=other

variable {f : AppliedPromotion → Except StackError AppliedPromotion}

theorem updateEntry_returns
    {merchandise other : ℤ}
    (fresh : AppliedPromotion) (hfre : EntryOk c fresh) (hem : fresh.lineAllocations=[])
    (hz : fresh.amount=0) (hf : ∀ entry, EntryOk c entry →
      Returns safe (Moved c allocations merchandise other entry) (f entry))
    (hall : ∀ entry∈applied, EntryOk c entry)
    (hids : (applied.map AppliedPromotion.promotionId).Nodup) :
    Returns safe (fun r => ((∀ entry∈r, EntryOk c entry) ∧
      (r.map AppliedPromotion.promotionId).Nodup) ∧
      (r.map taken).sum=(applied.map taken).sum+merchandise ∧
      (r.map shippingPart).sum=(applied.map shippingPart).sum+other ∧
      Recorded fresh.promotionId allocations applied r)
      (updateEntry fresh.promotionId f fresh applied) := by
  have htk : taken fresh=0 := by rw [taken,hem]; rfl
  induction applied with
  | nil =>
    refine (hf fresh hfre).bind fun entry hent => .ok ⟨?_,?_,?_,?_⟩
    · exact ⟨forall_mem_singleton.mpr hent.ok,nodup_singleton _⟩
    · simpa [htk] using hent.taken
    · simpa [shippingPart,htk,hz] using hent.part
    · exact forall_mem_singleton.mpr (.inr ⟨hent.id,_,hem ▸ hent.merged,.inl rfl⟩)
  | cons entry _ ih =>
    obtain ⟨hent,hrt⟩ := forall_mem_cons.mp hall
    unfold updateEntry
    split_ifs with hid
    · refine (hf entry hent).bind fun changed hcha => .ok ⟨?_,?_,?_,?_⟩
      · refine ⟨forall_mem_cons.mpr ⟨hcha.ok,hrt⟩,?_⟩
        rwa [map_cons,hcha.id]
      · rw [map_cons,sum_cons,hcha.taken,map_cons,sum_cons]
        ring
      · rw [map_cons,sum_cons,hcha.part,map_cons,sum_cons]
        ring
      · exact forall_mem_cons.mpr ⟨.inr ⟨hcha.id.trans hid,_,hcha.merged,
          .inr ⟨entry,mem_cons_self,hid,rfl⟩⟩,
          fun e he => .inl (mem_cons_of_mem _ he)⟩
    · refine (ih hrt (nodup_cons.mp hids).2).bind fun others hoth => .ok ⟨?_,?_,?_,?_⟩
      · refine ⟨forall_mem_cons.mpr ⟨hent,hoth.1.1⟩,nodup_cons.mpr ⟨?_,hoth.1.2⟩⟩
        intro hmem
        obtain ⟨e,he,heq⟩ := mem_map.mp hmem
        rcases hoth.2.2.2 e he with hold|⟨hnew,-⟩
        · exact (nodup_cons.mp hids).1 (heq ▸ mem_map_of_mem hold)
        · exact hid (heq.symm.trans hnew)
      · rw [map_cons,sum_cons,hoth.2.1,map_cons,sum_cons]
        ring
      · rw [map_cons,sum_cons,hoth.2.2.1,map_cons,sum_cons]
        ring
      · refine forall_mem_cons.mpr ⟨.inl mem_cons_self,fun e he => ?_⟩
        rcases hoth.2.2.2 e he with hold|⟨hnew,start,hmer,hsta⟩
        · exact .inl (mem_cons_of_mem _ hold)
        · exact .inr ⟨hnew,start,hmer,hsta.imp_right fun ⟨old,hold,heq⟩ =>
            ⟨old,mem_cons_of_mem _ hold,heq⟩⟩

theorem record_returns (allocations : List LineAllocation)
    (merchandise other : ℤ) {m o : ℤ}
    (hp : p∈c.promotions) (gross : Bool) (hled : Booked c m o ledger)
    (hf : ∀ entry, EntryOk c entry →
      Returns safe (Moved c allocations merchandise other entry) (f entry)) :
    Returns safe (fun r => Booked c (m+merchandise) (o+other) r ∧
      Recorded p.id allocations ledger.applied r.applied) (ledger.record p gross f) := by
  unfold Ledger.record
  refine (updateEntry_returns ⟨p.id,p.kind,gross,0,0,0,none,[]⟩
    ⟨fun a ha => absurd ha not_mem_nil,fun _ => rfl,p,hp,rfl,rfl⟩ rfl rfl hf
    hled.entries hled.ids).bind fun applied happ => ?_
  exact Meets.ok ⟨⟨happ.1.1,happ.1.2,by rw [happ.2.1,hled.taken],
    by rw [happ.2.2.1,hled.parts]⟩,happ.2.2.2⟩

/-- An entry after an action on merchandise. -/
structure Grown (c : Pricing) (allocations : List LineAllocation) (amount : ℤ)
    (entry r : AppliedPromotion) : Prop where
  fair : ∀ a∈r.lineAllocations, Fair c.input.lines a
  taken : taken r=taken entry+(allocations.map LineAllocation.amount).sum
  amount : r.amount=entry.amount+amount
  shipping : r.shippingAdjustment=entry.shippingAdjustment
  id : r.promotionId=entry.promotionId
  kind : r.kind=entry.kind
  merged : allocations.foldlM mergeAllocation entry.lineAllocations=.ok r.lineAllocations

theorem entry_record_returns {entry : AppliedPromotion}
    (hkeys : (c.input.lines.map StackLine.key).Nodup) (hent : EntryOk c entry)
    (hfai : ∀ a∈allocations, Fair c.input.lines a)
    (amount requested withTax : ℤ) : Returns safe (Grown c allocations amount entry)
      (entry.record amount requested withTax allocations) := by
  unfold AppliedPromotion.record
  refine (sum_returns _).bind fun total htot => (sum_returns _).bind fun _ _ => ?_
  refine (sum_returns _).bind fun _ _ => ?_
  refine (mergeAll_returns hkeys hent.fair hfai).self.bind fun all hall => ?_
  exact .ok ⟨hall.1.1,hall.1.2,htot.trans (by simp),rfl,rfl,rfl,hall.2⟩

section
variable {amount : ℤ} {entry r : AppliedPromotion}
variable (h : Grown c allocations amount entry r)
include h

theorem Grown.part : shippingPart r=
      shippingPart entry+(amount-(allocations.map LineAllocation.amount).sum) := by
  rw [shippingPart,h.taken,h.amount,shippingPart]
  ring

theorem Grown.moved (hent : EntryOk c entry)
    (withTax : ℤ) (shipping : Option (ℤ×ℤ)) (hshi : c.input.retainedShipping.isSome=true →
      shipping.elim 0 Prod.fst=shippingPart r) :
    Moved c allocations (allocations.map LineAllocation.amount).sum
      (amount-(allocations.map LineAllocation.amount).sum) entry
      {r with amountWithTax := withTax,shippingAdjustment := shipping} := by
  obtain ⟨p,hp,hid,hkd⟩ := hent.owner
  exact ⟨⟨h.fair,hshi,p,hp,hid.trans h.id.symm,hkd.trans h.kind.symm⟩,h.taken,h.part,h.id,h.merged⟩

end

/-- Rounded totals of lines that are worth at least nothing. -/
structure TotalsOf (lines : List WorkingLine) (t : Amounts) : Prop where
  net : t.net=(lines.map lineNet).sum
  gross : t.gross=(lines.map lineGross).sum
  list : ∀ line∈lines, 0≤line.list

/-- Lines that passed their checks and may be discounted. -/
def Ready (safe : Prop) (lines : List WorkingLine) : Prop :=
  ∀ line∈lines, Sound line.input∧(safe → Covered line)

theorem totals_returns (hrdy : Ready safe lines) :
    Returns safe (TotalsOf lines) (totals lines) := by
  unfold totals
  refine (Meets.mapM (R := FactsOf) fun line hln =>
    facts_returns (hrdy line hln).1 (hrdy line hln).2).bind fun all hall => ?_
  refine (sum_returns _).bind fun net hnet => (sum_returns _).bind fun gross hgro => ?_
  have hmap : all.map Facts.lineNet=lines.map lineNet∧all.map Facts.lineGross=lines.map lineGross ∧
      ∀ line∈lines, 0≤line.list := by
    clear hrdy hnet hgro
    induction hall with
    | nil => exact ⟨rfl,rfl,fun line hln => absurd hln not_mem_nil⟩
    | cons hfst _ ih =>
      refine ⟨?_,?_,forall_mem_cons.mpr ⟨hfst.list,ih.2.2⟩⟩
      · rw [map_cons,map_cons,hfst.net,ih.1]
      · rw [map_cons,map_cons,hfst.gross,ih.2.1]
  exact .ok ⟨hmap.1 ▸ hnet,hmap.2.1 ▸ hgro,hmap.2.2⟩

theorem TotalsOf.basis {t : Amounts} (h : TotalsOf lines t)
    (pricesIncludeTax : Bool) : t.basis pricesIncludeTax=channelTotal pricesIncludeTax lines := by
  unfold Amounts.basis channelTotal channel
  cases pricesIncludeTax
  · exact h.net
  · exact h.gross

theorem TotalsOf.basis_nonneg {t : Amounts} (h : TotalsOf lines t)
    (hsd : ∀ line∈lines, Sound line.input) (pricesIncludeTax : Bool) :
    0≤t.basis pricesIncludeTax := by
  rw [h.basis]
  refine sum_nonneg fun amount hamo => ?_
  obtain ⟨line,hln,rfl⟩ := mem_map.mp hamo
  have hqua : (0 : ℚ)≤line.input.quantity := by exact_mod_cast (hsd line hln).quantity
  have hnet := net_mono (hsd line hln) (h.list line hln)
  have hgro := gross_mono (hsd line hln) (h.list line hln)
  have hz : line.input.net 0=0 := by simp [StackLine.net]
  have hz' : line.input.gross 0=0 := by simp [StackLine.gross]
  rw [← roundHalfUp_intCast 0,Int.cast_zero]
  unfold channel
  split
  · exact roundHalfUp_mono (mul_nonneg (hz' ▸ hgro) hqua)
  · exact roundHalfUp_mono (mul_nonneg (hz ▸ hnet) hqua)

/-- What the checks of an order and its promotions establish. -/
structure Checked (c : Pricing) : Prop where
  sound : ∀ l∈c.input.lines, Sound l
  keys : (c.input.lines.map StackLine.key).Nodup
  ids : (c.promotions.map ResolvedPromotion.id).Nodup
  values : ∀ p∈c.promotions, 0≤p.value
  shipping : c.input.retainedShipping=none→0≤c.input.shipping∧0≤c.input.shippingTaxRateBps
  credits : ∀ p∈c.promotions, p.kind=.accountCredit →
    p.scope=.order∧0≤p.credit.elim 0 Credit.availableCents

/-- State of the merchandise: the input lines with what was taken off them, and the books,
whose entries keep a property. -/
structure Stage (c : Pricing) (safe : Prop) (start : ℤ) (K : AppliedPromotion → Prop)
    (lines : List WorkingLine) (ledger : Ledger) : Prop where
  inputs : lines.map WorkingLine.input=c.input.lines
  covered : ∀ line∈lines, safe → Covered line
  booked : Booked c (channelTotal c.input.pricesIncludeTax lines-start) 0 ledger
  kept : ∀ entry∈ledger.applied, K entry

/-- Noting a reason changes neither lines nor books. -/
theorem Stage.note {start : ℤ} {K : AppliedPromotion → Prop} (h : Stage c safe start K lines ledger)
    (p : ResolvedPromotion) (reason : Option String) :
    Stage c safe start K lines (ledger.note p reason) :=
  ⟨h.inputs,h.covered,⟨h.booked.entries,h.booked.ids,h.booked.taken,h.booked.parts⟩,h.kept⟩

theorem Recorded.kept {id : String}
    {changed : List AppliedPromotion} (h : Recorded id allocations applied changed)
    {K : AppliedPromotion → Prop} (hkp : ∀ entry∈applied, K entry)
    (hK : ∀ entry : AppliedPromotion, entry.promotionId=id → K entry) : ∀ entry∈changed, K entry := by
  intro entry hent
  rcases h entry hent with hold|⟨hnew,-⟩
  · exact hkp entry hold
  · exact hK entry hnew

theorem adjusted_fair {pricesIncludeTax : Bool} {line : WorkingLine}
    {r : WorkingLine×LineAllocation}
    (h : Adjusted pricesIncludeTax line r) {inputs : List StackLine} (hln : line.input∈inputs) :
    Fair inputs r.2 :=
  ⟨h.takes,⟨line.input,hln,h.key.symm,h.length⟩,h.sum⟩

/-- What adjusting the lines with units does. -/
structure Spread (pricesIncludeTax : Bool) (safe : Prop) (lines : List WorkingLine)
    (r : List WorkingLine×List LineAllocation) : Prop where
  inputs : r.1.map WorkingLine.input=lines.map WorkingLine.input
  covered : ∀ line∈r.1, safe → Covered line
  fair : ∀ a∈r.2, Fair (lines.map WorkingLine.input) a
  amount : channelTotal pricesIncludeTax r.1=
    channelTotal pricesIncludeTax lines+(r.2.map LineAllocation.amount).sum
  keys : (r.2.map LineAllocation.lineKey).Sublist (lines.map fun line => line.input.key)
  exact : (∀ line∈lines, line.input.priceIncludesTax=pricesIncludeTax ∧
    line.input.placedQuantity≤line.input.quantity) →
    (r.2.map fun a => a.sourceDiscount pricesIncludeTax).sum=(r.2.map LineAllocation.amount).sum

theorem Fair.mono {inputs others : List StackLine} (h : Fair inputs a)
    (hsub : inputs⊆others) : Fair others a := by
  obtain ⟨l,hl,hln⟩ := h.line
  exact ⟨h.takes,⟨l,hsub hl,hln⟩,h.sum⟩

theorem adjustActive_returns (pricesIncludeTax : Bool)
    (hrdy : Ready safe lines) {shares : List ℤ} (hsha : ∀ share∈shares, share≤0) :
    Returns safe (Spread pricesIncludeTax safe lines)
      (adjustActive pricesIncludeTax lines shares) := by
  induction lines generalizing shares with
  | nil =>
    exact .ok ⟨rfl,fun line hln => absurd hln not_mem_nil,fun a ha =>
      absurd ha not_mem_nil,by simp [channelTotal],List.Sublist.refl _,fun _ => rfl⟩
  | cons line _ ih =>
    obtain ⟨⟨hsd,hcov⟩,hrt⟩ := forall_mem_cons.mp hrdy
    have htl : ∀ {inputs : List StackLine} {all : List LineAllocation},
        (∀ a∈all, Fair inputs a)→∀ a∈all, Fair (line.input::inputs) a :=
      fun hall a ha => (hall a ha).mono (subset_cons_self _ _)
    unfold adjustActive
    split
    · next hqua =>
      have hfst : shares.headD 0≤0 := by
        cases shares with
        | nil => exact le_rfl
        | cons share => exact hsha share mem_cons_self
      refine (addAdjustment_returns pricesIncludeTax hsd hqua hcov hfst).bind
        fun adjusted hadj => ?_
      refine (ih hrt fun share hshare => hsha share (mem_of_mem_tail hshare)).bind
        fun others hoth => .ok ⟨?_,?_,?_,?_,?_,?_⟩
      · rw [map_cons,hadj.input,hoth.inputs,map_cons]
      · exact forall_mem_cons.mpr ⟨fun _ => hadj.covered,hoth.covered⟩
      · exact forall_mem_cons.mpr ⟨adjusted_fair hadj mem_cons_self,htl hoth.fair⟩
      · have hamo := hoth.amount
        simp only [channelTotal,map_cons,sum_cons,hadj.amount] at hamo ⊢
        rw [hamo]
        ring
      · simp only [map_cons,hadj.key]
        exact hoth.keys.cons_cons _
      · intro hexa
        obtain ⟨⟨hbas,hpla⟩,hexac⟩ := forall_mem_cons.mp hexa
        rw [map_cons,sum_cons,hadj.exact hbas hpla,hoth.exact hexac,map_cons,sum_cons]
    · refine (ih hrt hsha).bind fun others hoth => .ok ⟨?_,?_,?_,?_,?_,?_⟩
      · rw [map_cons,hoth.inputs,map_cons]
      · exact forall_mem_cons.mpr ⟨hcov,hoth.covered⟩
      · exact htl hoth.fair
      · have hamo := hoth.amount
        simp only [channelTotal,map_cons,sum_cons] at hamo ⊢
        rw [hamo]
        ring
      · exact hoth.keys.cons _
      · exact fun hexa => hoth.exact (forall_mem_cons.mp hexa).2

section Stages

variable (hchecked : Checked c) {start : ℤ} {K : AppliedPromotion → Prop}
include hchecked

theorem Stage.ready
    (h : Stage c safe start K lines ledger) : Ready safe lines := fun line hln =>
  ⟨hchecked.sound _ (h.inputs ▸ mem_map_of_mem hln),h.covered line hln⟩

omit hchecked in
theorem eligible_returns (hrdy : Ready safe lines)
    (p : ResolvedPromotion) : Returns safe (fun _ => True) (c.eligible lines p) := by
  unfold Pricing.eligible
  split
  · exact .ok trivial
  split
  · exact .ok trivial
  · split
    · exact .ok trivial
    · exact (totals_returns hrdy).bind fun _ _ => .ok trivial

omit hchecked in
theorem requested_returns {basis fixed : ℤ} (hval : 0≤p.value)
    (hbas : 0≤basis) (hfix : 0≤fixed) : Returns safe (fun r => r≤0) (p.requested basis fixed) := by
  unfold ResolvedPromotion.requested
  split
  · refine (rounded_returns _).mono fun r hr => ?_
    have hbasi : (0 : ℚ)≤basis := by exact_mod_cast hbas
    have hpro := mul_nonneg hbasi hval
    rw [hr]
    refine roundHalfUp_nonpos ?_
    linarith
  · exact .ok (neg_nonpos.mpr hfix)

variable {amount : ℤ}

theorem action_returns {m : ℤ}
    (hfai : ∀ a∈allocations, Fair c.input.lines a) (hboo : Booked c m 0 ledger)
    (hp : p∈c.promotions)
    (hamo : amount=(allocations.map LineAllocation.amount).sum) (requested withTax : ℤ) :
    Returns safe (fun r => Booked c (m+amount) 0 r ∧
      Recorded p.id allocations ledger.applied r.applied)
      (ledger.record p c.input.pricesIncludeTax fun entry =>
        entry.record amount requested withTax allocations) := by
  subst hamo
  refine (record_returns allocations (allocations.map LineAllocation.amount).sum
    ((allocations.map LineAllocation.amount).sum-
      (allocations.map LineAllocation.amount).sum) hp _ hboo
    fun entry hent => ?_).mono fun r hr => by rwa [sub_self,add_zero] at hr
  refine (entry_record_returns hchecked.keys hent hfai _ _ _).mono fun r hr => ?_
  refine hr.moved hent r.amountWithTax r.shippingAdjustment fun hret => ?_
  rw [hr.shipping,hr.part,sub_self,add_zero]
  exact hent.shipping hret

theorem itemAction_returns {done rest : List WorkingLine} {s : WorkingLine×Ledger}
    (h : Stage c safe start K (done++s.1::rest) s.2) (hp : p∈c.promotions)
    (hK : p.scope=.line→∀ entry : AppliedPromotion, entry.promotionId=p.id → K entry) :
    Returns safe (fun r => Stage c safe start K (done++r.1::rest) r.2)
      (c.itemAction done rest s p) := by
  have hmem : s.1∈done++s.1::rest := mem_append_right _ mem_cons_self
  have hinp : s.1.input∈c.input.lines := h.inputs ▸ mem_map_of_mem hmem
  have hsd := hchecked.sound _ hinp
  unfold Pricing.itemAction
  split_ifs with hact
  · exact .ok h
  have hqua : 0<s.1.input.quantity :=
    lt_of_le_of_ne hsd.quantity fun hz => hact (.inr (.inr hz.symm))
  refine (eligible_returns (h.ready hchecked) p).bind fun verdict _ => ?_
  split
  · refine (facts_returns hsd (h.covered _ hmem)).bind fun current hcur => ?_
    refine (totals_returns (h.ready hchecked)).bind fun before _ => ?_
    have hbas := (own_bounds hqua hcur).1
    refine (requested_returns (hchecked.values p hp) hbas (le_min
      (Rat.num_nonneg.mpr (hchecked.values p hp)) hbas)).bind fun requested hreq => ?_
    refine (addAdjustment_returns c.input.pricesIncludeTax hsd hqua (h.covered _ hmem)
      hreq).bind fun adjusted hadj => ?_
    have hinpu : (done++adjusted.1::rest).map WorkingLine.input=c.input.lines := by
      rw [← h.inputs,map_append,map_cons,hadj.input,map_append,map_cons]
    have hcov : ∀ line∈done++adjusted.1::rest, safe → Covered line := by
      intro line hln
      rcases mem_append.mp hln with hdn|hln
      · exact h.covered line (mem_append_left _ hdn)
      · cases hln with
        | head => exact fun _ => hadj.covered
        | tail _ hrt => exact h.covered line (mem_append_right _ (mem_cons_of_mem _ hrt))
    refine (totals_returns fun line hln => ⟨hchecked.sound _ (hinpu ▸
      mem_map_of_mem hln),hcov line hln⟩).bind fun after _ => ?_
    refine (action_returns hchecked (forall_mem_singleton.mpr (adjusted_fair hadj hinp)) h.booked
      hp (by simp) _ _).bind fun ledger hled => ?_
    refine .ok ⟨hinpu,hcov,?_,hled.2.kept h.kept (hK (not_not.mp fun hsco => hact (.inl hsco)))⟩
    have htot : channelTotal c.input.pricesIncludeTax (done++adjusted.1::rest)=
        channelTotal c.input.pricesIncludeTax (done++s.1::rest)+adjusted.2.amount := by
      simp only [channelTotal,map_append,map_cons,sum_append,sum_cons,hadj.amount]
      ring
    rw [htot,add_sub_right_comm]
    exact hled.1
  · exact .ok (h.note p _)

theorem itemStage_returns (hK : ∀ p∈c.promotions, p.scope=.line →
    ∀ entry : AppliedPromotion, entry.promotionId=p.id → K entry) {done todo : List WorkingLine}
    (h : Stage c safe start K (done++todo) ledger) :
    Returns safe (fun r => Stage c safe start K r.1 r.2) (c.itemStage done todo ledger) := by
  induction todo generalizing done ledger with
  | nil =>
    rw [append_nil] at h
    exact .ok h
  | cons _ rest ih =>
    unfold Pricing.itemStage
    refine (Meets.foldlM (I := fun s : WorkingLine×Ledger =>
      Stage c safe start K (done++s.1::rest) s.2) h fun s p hp hs =>
        itemAction_returns hchecked hs hp (hK p hp)).bind fun s hs => ih ?_
    rwa [append_assoc,singleton_append]

omit hchecked in
theorem activeGross_returns (hrdy : Ready safe lines) :
    Returns safe (fun _ => True) (activeGross lines) := by
  unfold activeGross
  refine (Meets.mapM (R := fun _ _ => True) fun line hln => ?_).bind fun _ _ => Meets.ok trivial
  obtain ⟨hsd,hcov⟩ := hrdy line (mem_filter.mp hln).1
  exact (facts_returns hsd hcov).mono fun _ _ => trivial

omit hchecked in
theorem shareOut_returns (weights : List ℤ) (hamo : amount≤0) :
    Returns safe (fun shares => ∀ share∈shares, share≤0) (shareOut weights amount) := by
  unfold shareOut
  split
  · exact .ok fun share hsha => absurd hsha not_mem_nil
  · exact (prorateSigned_returns _ _).mono fun shares hshar => hshar.nonpos hamo

omit hchecked in
theorem Stage.spread
    (h : Stage c safe start K lines ledger) {r : List WorkingLine×List LineAllocation}
    (hr : Spread c.input.pricesIncludeTax safe lines r) {booked : Ledger}
    (hamo : amount=(r.2.map LineAllocation.amount).sum)
    (hboo : Booked c (channelTotal c.input.pricesIncludeTax lines-start+amount) 0 booked)
    (hkp : ∀ entry∈booked.applied, K entry) : Stage c safe start K r.1 booked := by
  refine ⟨hr.inputs.trans h.inputs,hr.covered,?_,hkp⟩
  rwa [hr.amount,add_sub_right_comm,← hamo]

/-- An action on the order does nothing, or records what it spread over the lines. -/
def Acted (c : Pricing) (safe : Prop) (id : String) (s r : List WorkingLine×Ledger) : Prop :=
  r.1=s.1∧r.2.applied=s.2.applied∨∃ allocations,
    Recorded id allocations s.2.applied r.2.applied ∧
      Spread c.input.pricesIncludeTax safe s.1 (r.1,allocations)

theorem orderAction_returns {s : List WorkingLine×Ledger}
    (h : Stage c safe start K s.1 s.2) (hp : p∈c.promotions)
    (hK : ∀ entry : AppliedPromotion, entry.promotionId=p.id → K entry) :
    Returns safe (fun r => Stage c safe start K r.1 r.2∧Acted c safe p.id s r)
      (c.orderAction s p) := by
  have hrdy := h.ready hchecked
  have hval := hchecked.values p hp
  unfold Pricing.orderAction
  split
  · exact .ok ⟨h,.inl ⟨rfl,rfl⟩⟩
  refine (eligible_returns hrdy p).bind fun verdict _ => ?_
  split
  · refine (totals_returns hrdy).bind fun current hcur => ?_
    have hbas := hcur.basis_nonneg (fun line hln => (hrdy line hln).1) c.input.pricesIncludeTax
    have hbud : 0 ≤ if p.kind=.accountCredit then p.credit.elim 0 Credit.availableCents
        else p.value.num := by
      split
      · next hkd => exact (hchecked.credits p hp hkd).2
      · exact Rat.num_nonneg.mpr hval
    refine (requested_returns hval hbas (le_min hbud (le_max_left _ _))).bind
      fun amount hamo => (activeGross_returns hrdy).bind fun weights _ => ?_
    refine (shareOut_returns weights hamo).bind fun shares hsha => ?_
    refine (adjustActive_returns c.input.pricesIncludeTax hrdy hsha).bind
      fun adjusted hadj => (sum_returns _).bind fun amount hamo => ?_
    refine (totals_returns fun line hln => ⟨hchecked.sound _ ((hadj.inputs.trans
      h.inputs) ▸ mem_map_of_mem hln),hadj.covered line hln⟩).bind fun after _ => ?_
    refine (action_returns hchecked (fun a ha => h.inputs ▸ hadj.fair a ha) h.booked hp
      hamo _ _).bind fun ledger hled => ?_
    exact .ok ⟨h.spread hadj hamo hled.1 (hled.2.kept h.kept hK),.inr ⟨adjusted.2,hled.2,hadj⟩⟩
  · exact .ok ⟨h.note p _,.inl ⟨rfl,rfl⟩⟩

/-- Lines after points were taken off. -/
structure Pointed (c : Pricing) (safe : Prop) (total : ℤ) (r : List WorkingLine×ℤ) : Prop where
  inputs : r.1.map WorkingLine.input=c.input.lines
  covered : ∀ line∈r.1, safe → Covered line
  total : channelTotal c.input.pricesIncludeTax r.1=total-r.2

theorem pointsStage_returns (h : Stage c safe start K lines ledger) :
    Returns safe (Pointed c safe (channelTotal c.input.pricesIncludeTax lines))
      (c.pointsStage lines) := by
  have hrdy := h.ready hchecked
  unfold Pricing.pointsStage
  refine (totals_returns hrdy).bind fun current hcur => ?_
  have hbas := hcur.basis_nonneg (fun line hln => (hrdy line hln).1) c.input.pricesIncludeTax
  refine (integer_returns _ _ _).bind fun asked hask => ?_
  dsimp only
  split
  · exact .ok ⟨h.inputs,h.covered,(sub_zero _).symm⟩
  refine (activeGross_returns hrdy).bind fun weights _ => ?_
  refine (prorateSigned_returns weights _).bind fun shares hsha => ?_
  have hpoi := hsha.nonpos (neg_nonpos.mpr (le_min (hask.2.trans_eq hask.1.symm) hbas))
  refine (adjustActive_returns c.input.pricesIncludeTax hrdy hpoi).bind
    fun adjusted hadj => (sum_returns _).bind fun amount hamo => ?_
  refine .ok ⟨hadj.inputs.trans h.inputs,hadj.covered,?_⟩
  rw [hadj.amount,hamo,sub_neg_eq_add]

/-- State before and after a promotion acts on the order. -/
structure Acts (c : Pricing) (p : ResolvedPromotion)
    (before after : List WorkingLine×Ledger) : Prop where
  run : ∃ items earlier later, c.promotions=earlier++p::later ∧
    c.itemStage [] (c.input.lines.map StackLine.working) {}=.ok items ∧
    earlier.foldlM c.orderAction items=.ok before
  action : c.orderAction before p=.ok after

/-- Every line is priced on the basis of the store and keeps its placed quantity. -/
def Exact (input : StackInput) : Prop :=
  ∀ l∈input.lines, l.priceIncludesTax=input.pricesIncludeTax∧l.placedQuantity≤l.quantity

/-- Source discounts of a promotion on the basis of the store. -/
def drawn (c : Pricing) (entry : AppliedPromotion) : ℤ :=
  (entry.lineAllocations.map fun a => a.sourceDiscount c.input.pricesIncludeTax).sum

/-- What a promotion drew is the change of the merchandise when it acted. -/
def Draws (c : Pricing) (p : ResolvedPromotion) (applied : List AppliedPromotion) : Prop :=
  ∃ before after, Acts c p before after ∧
    (Exact c.input→∀ entry∈applied, entry.promotionId=p.id →
      drawn c entry=channelTotal c.input.pricesIncludeTax after.1-
        channelTotal c.input.pricesIncludeTax before.1)

/-- Lines, books and points after the merchandise stages. -/
structure Discounted (c : Pricing) (safe : Prop) (start : ℤ)
    (r : List WorkingLine×Ledger×ℤ) : Prop where
  inputs : r.1.map WorkingLine.input=c.input.lines
  covered : ∀ line∈r.1, safe → Covered line
  booked : Booked c (channelTotal c.input.pricesIncludeTax r.1+r.2.2-start) 0 r.2.1
  draws : ∀ p∈c.promotions, p.scope=.order → Draws c p r.2.1.applied

omit hchecked in
theorem mergeAll_distinct (all added : List LineAllocation)
    (hkeys : ((all++added).map LineAllocation.lineKey).Nodup) :
    added.foldlM mergeAllocation all=.ok (all++added) := by
  induction added generalizing all with
  | nil =>
    rw [append_nil]
    rfl
  | cons a added ih =>
    have happ : all++a::added=(all++[a])++added := by simp
    have hmer : mergeAllocation all a=.ok (all++[a]) := by
      have hnew : ∀ b∈all, b.lineKey≠a.lineKey := by
        intro b hb heq
        rw [map_append,nodup_append] at hkeys
        exact hkeys.2.2 _ (mem_map_of_mem hb) _ (mem_map_of_mem mem_cons_self) heq
      clear ih hkeys happ
      induction all with
      | nil => rfl
      | cons _ _ ihall =>
        obtain ⟨hb,hrt⟩ := forall_mem_cons.mp hnew
        rw [mergeAllocation,if_neg hb,ihall hrt]
        rfl
    rw [happ] at hkeys ⊢
    rw [foldlM_cons,hmer]
    exact ih _ hkeys

theorem Acted.drawn {s r : List WorkingLine×Ledger}
    (hsta : Stage c safe start (fun entry => entry.promotionId≠p.id) s.1 s.2)
    (h : Acted c safe p.id s r) (hexa : Exact c.input) {entry : AppliedPromotion}
    (hent : entry∈r.2.applied) (hid : entry.promotionId=p.id) :
    drawn c entry=channelTotal c.input.pricesIncludeTax r.1-
      channelTotal c.input.pricesIncludeTax s.1 := by
  rcases h with ⟨-,heq⟩|⟨allocations,hrec,hspr⟩
  · exact absurd hid (hsta.kept entry (heq ▸ hent))
  rcases hrec entry hent with hold|⟨-,first,hmer,hfst⟩
  · exact absurd hid (hsta.kept entry hold)
  obtain rfl : first=[] := hfst.resolve_right fun ⟨old,hold,heq,_⟩ =>
    hsta.kept old hold heq
  have hkeys : (allocations.map LineAllocation.lineKey).Nodup := by
    have hlns : s.1.map (fun line => line.input.key)=c.input.lines.map StackLine.key := by
      rw [← hsta.inputs,map_map]
      rfl
    exact (hlns ▸ hchecked.keys).sublist hspr.keys
  rw [mergeAll_distinct [] allocations hkeys] at hmer
  obtain rfl : allocations=entry.lineAllocations := Except.ok.inj hmer
  have hlns : ∀ line∈s.1, line.input.priceIncludesTax=c.input.pricesIncludeTax ∧
      line.input.placedQuantity≤line.input.quantity := fun line hln =>
    hexa _ (hsta.inputs ▸ mem_map_of_mem hln)
  rw [PromotionStackStages.drawn,hspr.exact hlns,hspr.amount,add_sub_cancel_left]

theorem merchandise_returns (hcov : ∀ l∈c.input.lines, safe → Covered l.working) :
    Returns safe (Discounted c safe (channelTotal c.input.pricesIncludeTax
      (c.input.lines.map StackLine.working))) c.merchandise := by
  unfold Pricing.merchandise
  have hsta : ∀ K : AppliedPromotion → Prop, Stage c safe (channelTotal c.input.pricesIncludeTax
      (c.input.lines.map StackLine.working)) K ([]++c.input.lines.map StackLine.working) {} := by
    refine fun K => ⟨?_,?_,⟨fun entry hent => absurd hent not_mem_nil,nodup_nil,?_,rfl⟩,
      fun entry hent => absurd hent not_mem_nil⟩
    · rw [nil_append,map_map]
      exact map_id' _
    · intro line hln
      obtain ⟨l,hl,rfl⟩ := mem_map.mp hln
      exact hcov l hl
    · rw [nil_append,sub_self]
      rfl
  refine (itemStage_returns hchecked (fun _ _ _ _ _ => trivial) (hsta fun _ => True)).self.bind
    fun items hite => ?_
  refine (Meets.foldlM (I := fun s : List WorkingLine×Ledger =>
    Stage c safe _ (fun _ => True) s.1 s.2) hite.1 fun s p hp hs => (orderAction_returns hchecked
      hs hp fun _ _ => trivial).mono fun _ hr => hr.1).self.bind fun order hord => ?_
  refine (pointsStage_returns hchecked hord.1).bind fun points hpoi => ?_
  refine Meets.ok ⟨hpoi.inputs,hpoi.covered,?_,fun p hp hsco => ?_⟩
  · rw [hpoi.total,sub_add_cancel]
    exact hord.1.booked
  obtain ⟨earlier,later,hspl⟩ := append_of_mem hp
  have hids := hchecked.ids
  rw [hspl,map_append,map_cons,nodup_middle] at hids
  obtain ⟨hot,-⟩ := nodup_cons.mp hids
  have hne : ∀ q∈earlier++later, ∀ entry : AppliedPromotion, entry.promotionId=q.id →
      entry.promotionId≠p.id := fun q hq entry hent heq =>
    hot (map_append ▸ heq ▸ hent ▸ mem_map_of_mem hq)
  have hrun := hord.2
  rw [hspl,foldlM_append,bind_eq_ok] at hrun
  obtain ⟨before,hbefo,hrun⟩ := hrun
  rw [foldlM_cons,bind_eq_ok] at hrun
  obtain ⟨after,hafter,hlat⟩ := hrun
  refine ⟨before,after,⟨⟨items,earlier,later,hspl,hite.2,hbefo⟩,hafter⟩,?_⟩
  have hmem : ∀ q∈earlier++later, q∈c.promotions := fun q hq => hspl ▸
    mem_append.mpr ((mem_append.mp hq).imp_right (mem_cons_of_mem _))
  have hfst := (itemStage_returns hchecked (fun q hq hln => ?_)
    (hsta fun entry => entry.promotionId≠p.id)).1 items hite.2
  · have hbef := (Meets.foldlM (I := fun s : List WorkingLine×Ledger =>
        Stage c safe _ (fun entry => entry.promotionId≠p.id) s.1 s.2) hfst fun s q hq hs =>
      (orderAction_returns hchecked hs (hmem q (mem_append_left _ hq))
        (hne q (mem_append_left _ hq))).mono fun _ hr => hr.1).1 before hbefo
    obtain ⟨haft,hact⟩ := (orderAction_returns hchecked (K := fun _ => True)
      ⟨hbef.inputs,hbef.covered,hbef.booked,fun _ _ => trivial⟩ hp
      fun _ _ => trivial).1 after hafter
    intro hexa
    have hdra := fun (entry : AppliedPromotion) (hent : entry∈after.2.applied) =>
      hact.drawn hchecked hbef hexa hent
    exact ((Meets.foldlM (I := fun s : List WorkingLine×Ledger => Stage c safe _ (fun entry =>
        entry.promotionId=p.id→drawn c entry=channelTotal c.input.pricesIncludeTax after.1-
          channelTotal c.input.pricesIncludeTax before.1) s.1 s.2)
      ⟨haft.inputs,haft.covered,haft.booked,hdra⟩ fun s q hq hs =>
      (orderAction_returns hchecked hs (hmem q (mem_append_right _ hq)) fun entry hent hid =>
        absurd hid (hne q (mem_append_right _ hq) entry hent)).mono fun _ hr => hr.1).1
      order hlat).kept
  · rw [hspl,mem_append,mem_cons] at hq
    rcases hq with hq|rfl|hq
    · exact hne q (mem_append_left _ hq)
    · rw [hsco] at hln
      cases hln
    · exact hne q (mem_append_right _ hq)

/-- Books while shipping is waived, which changes no allocations. -/
structure Shipped (c : Pricing) (merchandise : ℤ) (applied : List AppliedPromotion)
    (s : ShippingState) : Prop where
  booked : Booked c merchandise (s.total-c.input.shipping) s.ledger
  retained : s.retained.isSome=c.input.retainedShipping.isSome
  kept : ∀ entry∈s.ledger.applied, entry.lineAllocations=[]∨∃ old∈applied,
    old.promotionId=entry.promotionId∧old.lineAllocations=entry.lineAllocations
  total : 0≤c.input.shipping→0 ≤ s.total

theorem shippingAction_returns (hrdy : Ready safe lines) {m : ℤ}
    {s : ShippingState} (hs : Shipped c m applied s) (hp : p∈c.promotions) :
    Returns safe (Shipped c m applied) (c.shippingAction lines s p) := by
  unfold Pricing.shippingAction
  split
  · exact .ok hs
  refine (eligible_returns hrdy p).bind fun verdict _ => ?_
  split
  · have hgro : Returns safe (fun _ => True) (c.input.shippingGross s.total s.retained) := by
      unfold StackInput.shippingGross
      split
      · exact (sum_returns _).mono fun _ _ => trivial
      · split
        · exact .ok trivial
        · exact (rounded_returns _).mono fun _ _ => trivial
    refine hgro.bind fun oldGross _ => ?_
    refine (record_returns [] 0 (-s.total) hp _
      hs.booked fun entry hent => ?_).bind fun ledger hled => .ok ⟨?_,?_,?_,fun _ => le_rfl⟩
    · refine (entry_record_returns hchecked.keys hent (fun a ha => absurd ha not_mem_nil)
        _ _ _).bind fun r hr => ?_
      have hpar := hr.part
      have hmv := hr.moved hent
      simp only [map_nil,sum_nil,sub_zero] at hpar hmv
      unfold AppliedPromotion.waive
      refine (sum_returns _).bind fun withTax _ => ?_
      split_ifs with hno
      · refine (sum_returns _).bind fun net hnet => (sum_returns _).bind fun gross _ => ?_
        refine .ok (hmv _ _ fun hret => ?_)
        have hold := hent.shipping hret
        rw [← hr.shipping] at hold
        have hnet' : net=r.shippingAdjustment.elim 0 Prod.fst+-s.total := by simpa using hnet
        exact (hnet'.trans (congrArg (·+-s.total) hold)).trans hpar.symm
      exact .ok (hmv _ _ fun hret => absurd (hs.retained.trans hret) hno)
    · have hboo := hled.1
      rwa [add_zero,sub_eq_add_neg,add_right_comm,add_neg_cancel] at hboo
    · rw [Option.isSome_map,hs.retained]
    · intro entry hent
      rcases hled.2 entry hent with hold|⟨hid,start,hmer,hsta⟩
      · exact hs.kept entry hold
      obtain rfl : start=entry.lineAllocations := Except.ok.inj hmer
      rcases hsta with hem|⟨old,hold,heq,hall⟩
      · exact .inl hem
      rcases hs.kept old hold with hem|⟨first,hfst,hfir,hfirs⟩
      · exact .inl (hall ▸ hem)
      · exact .inr ⟨first,hfst,hfir.trans (heq.trans hid.symm),hfirs.trans hall⟩
  · exact .ok ⟨⟨hs.booked.entries,hs.booked.ids,hs.booked.taken,hs.booked.parts⟩,hs.retained,hs.kept,
      hs.total⟩

end Stages

end SellRight.PromotionStackStages
