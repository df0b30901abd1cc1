import SellRight.CreditFundingPlanner

/-!
# Reading back a posted restoration

A planner writes an envelope as sorted JSON text into the row it posts. The
reader parses that text and compares it with the row. A restoration whose
changes fit its line passes every check of the reader, and the reader sees
exactly the changes the planner wrote.
-/

namespace SellRight.CreditFundingEnvelope

open JsonText JsonStable KeyedRecord CreditMath CreditFundingLedger CreditFundingPlanner List

section Reading

variable {members : List (String×Json)}

mutual

theorem coerceText_stable : ∀ value : Json, coerceText (stable value)=coerceText value
  | .null => rfl
  | .bool _ => rfl
  | .num _ => rfl
  | .real _ => rfl
  | .str _ => rfl
  | .arr items => by rw [stable,coerceText,coerceText,coerceItems_stable items]
  | .obj _ => by rw [stable,coerceText,coerceText]

theorem coerceItems_stable : ∀ items : List Json, coerceItems (stableItems items)=coerceItems items
  | [] => rfl
  | .null::items => by simp only [stableItems,stable,coerceItems,coerceItems_stable items]
  | .bool b::items => by simp only [stableItems,stable,coerceItems,coerceItems_stable items]
  | .num n::items => by simp only [stableItems,stable,coerceItems,coerceItems_stable items]
  | .real l::items => by simp only [stableItems,stable,coerceItems,coerceItems_stable items]
  | .str s::items => by simp only [stableItems,stable,coerceItems,coerceItems_stable items]
  | .arr list::items => by
    have hhd := coerceText_stable (.arr list)
    rw [stable] at hhd
    simp only [stableItems,stable,coerceItems,coerceItems_stable items,hhd]
  | .obj list::items => by
    simp only [stableItems,stable,coerceItems,coerceItems_stable items,coerceText]

end

section
variable (hnms : (members.map Prod.fst).Nodup)
include hnms

variable (name : String)

theorem memberText_stable :
    memberText (stable (.obj members)) name=memberText (.obj members) name := by
  rw [memberText,memberText,get_stable hnms]
  cases (Json.obj members).get name with
  | none => rfl
  | some value => exact coerceText_stable value

theorem hasText_stable (test : String → Bool) :
    hasText (stable (.obj members)) name test=hasText (.obj members) name test := by
  rw [hasText,hasText,get_stable hnms]
  cases (Json.obj members).get name with
  | none => rfl
  | some value => cases value <;> simp [stable]

/-- Sorting changes no comparison with a string. -/
theorem isText_stable (name text : String) :
    isText (stable (.obj members)) name text=isText (.obj members) name text :=
  hasText_stable hnms name fun member => decide (member=text)

/-- Sorting changes no comparison with a number. -/
theorem isNumber_stable (n : Int) :
    isNumber (stable (.obj members)) name n=isNumber (.obj members) name n := by
  rw [isNumber,isNumber,get_stable hnms]
  cases (Json.obj members).get name with
  | none => rfl
  | some value => cases value <;> simp [stable]

theorem itemsOf_stable :
    itemsOf (stable (.obj members)) name=(itemsOf (.obj members) name).map stable := by
  rw [itemsOf,itemsOf,get_stable hnms]
  cases (Json.obj members).get name with
  | none => rfl
  | some value => cases value <;> simp [stable,stableItems_eq_map]

/-- The operation is sorted in place. -/
theorem operationOf_stable :
    operationOf (stable (.obj members))=stable (operationOf (.obj members)) := by
  rw [operationOf,operationOf,get_stable hnms]
  cases (Json.obj members).get "operation" with
  | none | some => rfl

end

end Reading

/-- A written change reads back. -/
theorem unitChange_changeJson (change : UnitChange) :
    unitChange (stable (changeJson change))=some change := by
  have hnms : (([("index",.num change.index),("before",.num change.before),
      ("after",.num change.after)] : List (String×Json)).map Prod.fst).Nodup := by
    simp
  rw [unitChange,changeJson,get_stable hnms,get_stable hnms,get_stable hnms]
  simp [Json.get,stable]

/-- Where a restoration comes from. -/
inductive Provenance where
  | edit (cause : Cause) (editId requestDigest : String)
  | operation (returned : Operation)

/-- A restoration as a planner writes it. -/
structure Restoration where
  provenance : Provenance
  line : String
  units : List UnitChange

namespace Restoration

variable (restoration : Restoration)

/-- The units came back. -/
def quantityReturn : Bool :=
  match restoration.provenance with
  | .edit cause _ _ => decide (cause=.quantityReturn)
  | .operation _ => true

def cents : List Int := restoration.units.map fun u => u.before-u.after

def refundId : Option String :=
  match restoration.provenance with
  | .edit _ _ _ => none
  | .operation returned => if returned.kind=.refund then some returned.id else none

section
variable (redemption : CreditTransaction)

def envelope : Json :=
  match restoration.provenance with
  | .edit cause editId digest =>
    editEnvelope redemption restoration.line editId digest cause restoration.units
  | .operation returned => unitEnvelope redemption restoration.line returned restoration.units

def posting : EditFundingPosting :=
  postingOf redemption restoration.line (restoration.envelope redemption) restoration.refundId
    (if restoration.quantityReturn then restoration.units.length else 0) restoration.cents.sum
    restoration.cents

/-- Idempotency key of the restoration. -/
def key : String :=
  match restoration.provenance with
  | .edit cause editId _ =>
    "edit:" ++ editId ++ ":credit:" ++ redemption.id ++ ":line:" ++ restoration.line ++ ":" ++
      cause.text
  | .operation returned =>
    if returned.kind=.refund then "refund:" ++ returned.id ++ ":line:" ++ restoration.line
    else "manual:" ++ returned.id

end

/-- Edges the reader collects from the restoration. -/
def edges : List ((String×ℕ)×UnitEdge) := restoration.units.map fun u =>
    ((restoration.line,u.index),⟨u.before,u.after,restoration.quantityReturn⟩)

end Restoration

/-- A provenance the reader accepts. -/
def Provenance.Valid : Provenance → Prop
  | .edit _ editId digest => isUuid editId=true∧isDigest digest=true
  | .operation returned => operationIdOk (decide (returned.kind=.refund)) returned.id=true

/-- A restoration whose changes fit its line. -/
structure Fits (original : Allocation) (restoration : Restoration) : Prop where
  line : (original.get restoration.line).isSome
  provenance : restoration.provenance.Valid
  nonempty : restoration.units≠[]
  index : ∀ u∈restoration.units, u.index<((original.get restoration.line).getD []).length
  distinct : (restoration.units.map UnitChange.index).Nodup
  cents : ∀ u∈restoration.units, 0≤u.after∧u.after≤u.before∧u.before ≤ maxCreditCents
  /-- A returned unit keeps nothing, a corrected one keeps less. -/
  cause : ∀ u∈restoration.units,
    if restoration.quantityReturn then u.after=0 else u.after<u.before
  total : restoration.cents.sum ≤ maxCreditCents

/-- A row that stores a posting, under its own id. -/
structure StoredAs (posting : EditFundingPosting) (row : CreditTransaction) : Prop where
  kind : row.kind=posting.kind
  status : row.status=posting.status
  related : row.relatedTransactionId=some posting.relatedTransactionId
  order : row.orderId=some posting.orderId
  account : row.accountCreditId=posting.accountCreditId
  line : row.orderLineId=some posting.orderLineId
  refund : row.refundId=posting.refundId
  quantity : row.quantity=some posting.quantity
  amount : row.amount=posting.amount
  delta : row.delta=posting.delta
  key : row.idempotencyKey=posting.idempotencyKey
  allocation : row.allocation=some posting.allocation
  operational : row.operationalAllocation=some posting.operationalAllocation
  id : row.id ≠ ""

theorem plain_changes (units : List UnitChange) : Plain (.arr (units.map changeJson)) := by
  refine .arr ?_
  intro item hite
  obtain ⟨change,-,rfl⟩ := mem_map.mp hite
  refine .obj (by simp) ?_
  intro member hmem
  simp only [mem_cons,not_mem_nil,or_false] at hmem
  rcases hmem with rfl|rfl|rfl <;> exact .num _

theorem envelope_plain (restoration : Restoration) (redemption : CreditTransaction) :
    ∃ members, restoration.envelope redemption=.obj members ∧
      (members.map Prod.fst).Nodup∧∀ member∈members, Plain member.2 := by
  have hun := plain_changes restoration.units
  cases hpro : restoration.provenance with
  | edit =>
    refine ⟨_,by rw [Restoration.envelope,hpro]; rfl,by simp,?_⟩
    intro member hmem
    simp only [mem_cons,not_mem_nil,or_false] at hmem
    rcases hmem with rfl|rfl|rfl|rfl|rfl|rfl|rfl|rfl|rfl|rfl <;>
      first | exact .num _ | exact .str _ | exact hun
  | operation returned =>
    refine ⟨_,by rw [Restoration.envelope,hpro]; rfl,by simp,?_⟩
    have hope : Plain (.obj [("kind",.str returned.kind.text),("id",.str returned.id)]) := by
      refine .obj (by simp) ?_
      intro member hmem
      simp only [mem_cons,not_mem_nil,or_false] at hmem
      rcases hmem with rfl|rfl <;> exact .str _
    intro member hmem
    simp only [mem_cons,not_mem_nil,or_false] at hmem
    rcases hmem with rfl|rfl|rfl|rfl|rfl|rfl|rfl|rfl|rfl <;>
      first | exact .num _ | exact .str _ | exact hun | exact hope

section Envelope

variable (restoration : Restoration) (redemption : CreditTransaction)

/-- The parsed envelope reads the same strings. -/
theorem isText_envelope (name text : String) :
    isText (stable (restoration.envelope redemption)) name text =
      isText (restoration.envelope redemption) name text := by
  obtain ⟨members,hobj,hnms,-⟩ := envelope_plain restoration redemption
  rw [hobj,isText_stable hnms]

/-- The parsed envelope reads the same texts. -/
theorem memberText_envelope (name : String) :
    memberText (stable (restoration.envelope redemption)) name =
      memberText (restoration.envelope redemption) name := by
  obtain ⟨members,hobj,hnms,-⟩ := envelope_plain restoration redemption
  rw [hobj,memberText_stable hnms]

theorem hasText_envelope (name : String) (test : String → Bool) :
    hasText (stable (restoration.envelope redemption)) name test =
      hasText (restoration.envelope redemption) name test := by
  obtain ⟨members,hobj,hnms,-⟩ := envelope_plain restoration redemption
  rw [hobj,hasText_stable hnms]

/-- The parsed envelope has the same version. -/
theorem isNumber_envelope (name : String) (n : Int) :
    isNumber (stable (restoration.envelope redemption)) name n =
      isNumber (restoration.envelope redemption) name n := by
  obtain ⟨members,hobj,hnms,-⟩ := envelope_plain restoration redemption
  rw [hobj,isNumber_stable hnms]

/-- The parsed envelope lists the changes in order. -/
theorem itemsOf_envelope :
    itemsOf (stable (restoration.envelope redemption)) "units" =
      restoration.units.map fun u => stable (changeJson u) := by
  obtain ⟨members,hobj,hnms,-⟩ := envelope_plain restoration redemption
  have hun : itemsOf (restoration.envelope redemption) "units" =
      restoration.units.map changeJson := by
    cases hpro : restoration.provenance <;>
      simp [Restoration.envelope,hpro,editEnvelope,unitEnvelope,itemsOf,Json.get]
  rw [hobj,itemsOf_stable hnms,← hobj,hun,map_map]
  rfl

theorem operationOf_envelope {returned : Operation}
    (hpro : restoration.provenance=.operation returned) :
    operationOf (stable (restoration.envelope redemption)) =
      stable (.obj [("kind",.str returned.kind.text),("id",.str returned.id)]) := by
  obtain ⟨members,hobj,hnms,-⟩ := envelope_plain restoration redemption
  rw [hobj,operationOf_stable hnms,← hobj]
  simp [Restoration.envelope,hpro,unitEnvelope,operationOf,Json.get]

end Envelope

theorem isText_operation (returned : Operation) (name text : String) :
    isText (stable (.obj [("kind",.str returned.kind.text),("id",.str returned.id)])) name text =
      isText (.obj [("kind",.str returned.kind.text),("id",.str returned.id)]) name text :=
  isText_stable (by simp) name text

theorem memberText_operation (returned : Operation) (name : String) :
    memberText (stable (.obj [("kind",.str returned.kind.text),("id",.str returned.id)])) name =
      memberText (.obj [("kind",.str returned.kind.text),("id",.str returned.id)]) name :=
  memberText_stable (by simp) name

theorem isText_kind (returned : Operation) :
    isText (.obj [("kind",.str returned.kind.text),("id",.str returned.id)]) "kind" "refund" =
      decide (returned.kind=.refund) := by
  cases hkd : returned.kind <;> simp [isText,Json.get,OperationKind.text]

section
variable (restoration : Restoration) (redemption : CreditTransaction)

theorem keyFor_envelope :
    keyFor (restoration.envelope redemption)=restoration.key redemption := by
  cases hpro : restoration.provenance with
  | edit =>
    simp [keyFor,Restoration.envelope,Restoration.key,hpro,editEnvelope,isText,
      memberText,coerceText,Json.get]
  | operation returned =>
    cases hkd : returned.kind <;>
      simp [keyFor,Restoration.envelope,Restoration.key,hpro,hkd,unitEnvelope,isText,
        memberText,coerceText,Json.get,operationOf,OperationKind.text,editRestore,unitRestore]

theorem keyFor_parsed :
    keyFor (stable (restoration.envelope redemption))=restoration.key redemption := by
  rw [← keyFor_envelope,keyFor,keyFor]
  simp only [isText_envelope,memberText_envelope]
  cases hpro : restoration.provenance with
  | edit =>
    have htyp : isText (restoration.envelope redemption) "type" editRestore=true := by
      simp [Restoration.envelope,hpro,editEnvelope,isText,Json.get]
    rw [if_pos htyp,if_pos htyp]
  | operation returned =>
    have hpla : operationOf (restoration.envelope redemption) =
        .obj [("kind",.str returned.kind.text),("id",.str returned.id)] := by
      simp [Restoration.envelope,hpro,unitEnvelope,operationOf,Json.get]
    rw [operationOf_envelope restoration redemption hpro,hpla]
    simp only [isText_operation,memberText_operation]

end

theorem parseEnvelope_stored {restoration : Restoration} {redemption row : CreditTransaction}
    (hval : restoration.provenance.Valid) (hun : restoration.units≠[])
    (hrow : row.allocation=some (serialize (restoration.envelope redemption))) :
    parseEnvelope row=.ok (some (stable (restoration.envelope redemption))) := by
  obtain ⟨members,hobj,hnms,hmem⟩ := envelope_plain restoration redemption
  have hpar : parse (serialize (restoration.envelope redemption)) =
      some (stable (restoration.envelope redemption)) := by
    rw [hobj]
    exact parse_serialize (.obj hnms hmem)
  have hobje : isObject (stable (restoration.envelope redemption))=true := by
    rw [hobj]
    rfl
  have hite : (itemsOf (stable (restoration.envelope redemption)) "units").isEmpty=false := by
    rw [itemsOf_envelope]
    simpa using hun
  have hver : isNumber (restoration.envelope redemption) "version" 1=true := by
    cases hpro : restoration.provenance <;>
      simp [Restoration.envelope,hpro,editEnvelope,unitEnvelope,isNumber,Json.get]
  rw [parseEnvelope,hrow]
  simp only [hpar,hobje,Bool.not_true,Bool.false_eq_true,if_false,memberText_envelope,
    isText_envelope]
  cases hpro : restoration.provenance with
  | edit cause =>
    rw [hpro] at hval
    have htyp : memberText (restoration.envelope redemption) "type" = editRestore := by
      simp [Restoration.envelope,hpro,editEnvelope,memberText,Json.get,coerceText]
    have hot : isText (restoration.envelope redemption) "type" unitRestore=false := by
      simp [Restoration.envelope,hpro,editEnvelope,isText,Json.get,editRestore,unitRestore]
    have hprov : editProvenance (stable (restoration.envelope redemption))=true := by
      simp only [editProvenance,isNumber_envelope,memberText_envelope,hasText_envelope,hite,hver]
      cases cause <;> simp [Restoration.envelope,hpro,editEnvelope,memberText,hasText,Json.get,
          coerceText,Cause.text,hval.1,hval.2]
    simp only [htyp,hot,hprov,mem_cons,true_or,not_true_eq_false,if_false,Bool.false_eq_true]
    rfl
  | operation returned =>
    rw [hpro] at hval
    change operationIdOk (decide (returned.kind=.refund)) returned.id=true at hval
    have htyp : memberText (restoration.envelope redemption) "type" = unitRestore := by
      simp [Restoration.envelope,hpro,unitEnvelope,memberText,Json.get,coerceText]
    have hot : isText (restoration.envelope redemption) "type" unitRestore=true := by
      simp [Restoration.envelope,hpro,unitEnvelope,isText,Json.get]
    have hprov : unitProvenance (stable (restoration.envelope redemption))=true := by
      simp only [unitProvenance,isNumber_envelope,isText_envelope,hite,hver,
        operationOf_envelope restoration redemption hpro,isText_operation,
        memberText_operation,isText_kind]
      have hid : hasText (stable (.obj [("kind",.str returned.kind.text),("id",.str returned.id)]))
          "id" (operationIdOk (decide (returned.kind=.refund)))=true := by
        rw [hasText_stable (by simp)]
        simpa [hasText,Json.get] using hval
      rw [hid]
      cases hkd : returned.kind <;>
        simp [Restoration.envelope,hpro,unitEnvelope,memberText,isText,isObject,
          Json.get,coerceText,OperationKind.text,hkd,stable]
    simp only [htyp,hot,hprov,mem_cons,or_true,true_or,not_true_eq_false,if_false,if_true]
    rfl

/-- Changes that fit a line read back. -/
theorem readUnits_changes {length : ℕ} {quantityReturn : Bool} {units : List UnitChange}
    {seen : List ℕ} (hind : ∀ u∈units, u.index<length)
    (hdis : (seen++units.map UnitChange.index).Nodup)
    (hcen : ∀ u∈units, 0≤u.after∧u.after≤u.before∧u.before ≤ maxCreditCents)
    (hcau : ∀ u∈units, if quantityReturn then u.after=0 else u.after<u.before) :
    readUnits length [] quantityReturn (units.map fun u => stable (changeJson u)) seen =
      .ok units := by
  induction units generalizing seen with
  | nil => rfl
  | cons u units ih =>
    have hfre : u.index∉seen := by
      intro hsee
      rw [nodup_append] at hdis
      exact hdis.2.2 u.index hsee u.index (by simp) rfl
    have hu := hcen u (by simp)
    have hkd : (if quantityReturn then decide (u.after=0) else decide (u.after<u.before)) =
        true := by
      have hcau := hcau u (by simp)
      cases quantityReturn <;> simpa using hcau
    have hmor : readUnits length [] quantityReturn (units.map fun u => stable (changeJson u))
        (seen++[u.index])=.ok units :=
      ih (fun v hv => hind v (by simp [hv])) (by simpa using hdis)
        (fun v hv => hcen v (by simp [hv])) (fun v hv => hcau v (by simp [hv]))
    have hlt := hind u (by simp)
    rw [map_cons,readUnits,unitChange_changeJson]
    simp only [hmor,hkd]
    rw [requireFact_true]
    · rfl
    · simp only [money,Bool.and_eq_true,decide_eq_true_eq,not_mem_nil,not_false_eq_true,and_true]
      exact ⟨⟨⟨⟨hlt,hfre⟩,by omega⟩,by omega⟩,hu.2.1⟩

theorem Fits.cents_range {original : Allocation} {restoration : Restoration}
    (hfs : Fits original restoration) :
    0≤restoration.cents.sum∧restoration.cents.sum ≤ maxCreditCents := by
  refine ⟨sum_nonneg ?_,hfs.total⟩
  intro value hval
  obtain ⟨u,hu,rfl⟩ := mem_map.mp hval
  have hcen := hfs.cents u hu
  omega

section
variable (digests : Record String String) (restoration : Restoration)

/-- Digests known after a restoration. -/
def noteDigest : Record String String :=
  match restoration.provenance with
  | .edit _ editId digest => digests.set editId digest
  | .operation _ => digests

/-- The digest of the restoration's edit is new or the same as before. -/
def DigestKnown : Prop :=
  match restoration.provenance with
  | .edit _ editId digest => digests.get editId=none∨digests.get editId=some digest
  | .operation _ => True

end

section Stored

variable {redemption row : CreditTransaction} {original : Allocation} {restoration : Restoration}

theorem Restoration.key_ne_empty (restoration : Restoration) (redemption : CreditTransaction) :
    restoration.key redemption ≠ "" := by
  intro hem
  have hlis := congrArg String.toList hem
  cases hpro : restoration.provenance with
  | edit => simp [Restoration.key,hpro] at hlis
  | operation returned => cases hkd : returned.kind <;> simp [Restoration.key,hpro,hkd] at hlis

section
variable (hsto : StoredAs (restoration.posting redemption) row) (hfs : Fits original restoration)
include hsto hfs

theorem scanRow_stored (hord : redemption.orderId.isSome) {scan : HistoryScan}
    (hid : row.id∉scan.ids) (hkey : restoration.key redemption∉scan.keys) :
    scanRow redemption original scan row=.ok {scan with
      ids := scan.ids++[row.id]
      keys := scan.keys++[restoration.key redemption]
      modern := scan.modern++[(row,stable (restoration.envelope redemption))]} := by
  obtain ⟨orderId,horde⟩ := Option.isSome_iff_exists.mp hord
  have hran := hfs.cents_range
  have hrow : row.idempotencyKey=restoration.key redemption := by
    rw [hsto.key,Restoration.posting,postingOf,keyFor_envelope]
  have hln : row.orderLineId=some restoration.line := hsto.line
  have hamo : row.amount=restoration.cents.sum := hsto.amount
  have hdel : row.delta=restoration.cents.sum := hsto.delta
  have hrowo : row.orderId=redemption.orderId := by
    rw [hsto.order,Restoration.posting,postingOf,horde,Option.getD_some]
  have hkd : row.kind=.restore := hsto.kind
  have hsta : row.status=.posted := hsto.status
  have hacc : row.accountCreditId=redemption.accountCreditId := hsto.account
  have hrel : row.relatedTransactionId=some redemption.id := hsto.related
  have hem : row.id.isEmpty=false := by simpa using hsto.id
  have hkeye : (restoration.key redemption).isEmpty=false := by
    simpa using restoration.key_ne_empty redemption
  have hpar : parseEnvelope row=.ok (some (stable (restoration.envelope redemption))) :=
    parseEnvelope_stored hfs.provenance hfs.nonempty hsto.allocation
  rw [scanRow,requireFact_true]
  · simp only [hpar,hrow]
    rfl
  · simp [hem,hid,hrow,hkeye,hkey,hkd,hsta,hrowo,hacc,hrel,hln,hamo,hdel,hfs.line,money,hran]

/-- The second pass accepts a stored restoration and collects its edges. -/
theorem readModern_stored {vectors : Vectors}
    (hret : (vectors.returnedIndexes.get restoration.line).getD []=[]) {scan : ModernScan}
    (hdig : DigestKnown scan.editDigests restoration) : readModern redemption original vectors scan
        (row,stable (restoration.envelope redemption))=.ok {
      transitions := scan.transitions++restoration.edges
      editDigests := noteDigest scan.editDigests restoration} := by
  have hran := hfs.cents_range
  have hrow : row.idempotencyKey=restoration.key redemption := by
    rw [hsto.key,Restoration.posting,postingOf,keyFor_envelope]
  have hln : row.orderLineId.getD "" = restoration.line := by
    rw [hsto.line]
    rfl
  have hamo : row.amount=restoration.cents.sum := hsto.amount
  have hcau : isText (restoration.envelope redemption) "cause" "quantity_return" =
      restoration.quantityReturn := by
    cases hpro : restoration.provenance with
    | edit cause =>
      cases cause <;>
        simp [Restoration.envelope,Restoration.quantityReturn,hpro,editEnvelope,isText,
          Json.get,Cause.text]
    | operation =>
      simp [Restoration.envelope,Restoration.quantityReturn,hpro,unitEnvelope,isText,Json.get]
  have hfie : isText (restoration.envelope redemption) "redemptionId" redemption.id=true ∧
      isText (restoration.envelope redemption) "orderId" (redemption.orderId.getD "")=true ∧
      isText (restoration.envelope redemption) "accountCreditId" redemption.accountCreditId=true ∧
      isText (restoration.envelope redemption) "orderLineId" restoration.line=true := by
    cases hpro : restoration.provenance <;>
      simp [Restoration.envelope,hpro,editEnvelope,unitEnvelope,isText,Json.get]
  have hqua : row.quantity=some (if restoration.quantityReturn then
      (restoration.units.length : Int) else 0) := hsto.quantity
  have hope : rowAllocationJson row.operationalAllocation =
      allocationJson (.single restoration.line restoration.cents) := by
    rw [hsto.operational]
    rfl
  have hun : readUnits ((original.get restoration.line).getD []).length [] restoration.quantityReturn
      (restoration.units.map fun u => stable (changeJson u)) []=.ok restoration.units :=
    readUnits_changes hfs.index (by simpa using hfs.distinct) hfs.cents hfs.cause
  have htot : sum (restoration.units.map fun u => u.before-u.after) .ambiguousHistory =
      .ok restoration.cents.sum := sum_eq hran _
  rw [readModern]
  simp only [hln,isText_envelope,hcau,keyFor_parsed,itemsOf_envelope,hret,
    memberText_envelope,length_map]
  rw [requireFact_true (by simp [hfie,hrow,hqua])]
  have hlt : requireFact (decide (restoration.cents.sum=row.amount) &&
      decide (serialize (rowAllocationJson row.operationalAllocation) =
        serialize (allocationJson (.single restoration.line
          (restoration.units.map fun u => u.before-u.after))))) .ambiguousHistory
      "Restoration allocation does not conserve cents" = .ok () :=
    requireFact_true (by simp [hamo,hope,Restoration.cents]) _ _
  cases hpro : restoration.provenance with
  | edit _ editId digest =>
    have hot : isText (restoration.envelope redemption) "type" unitRestore=false := by
      simp [Restoration.envelope,hpro,editEnvelope,isText,Json.get,editRestore,unitRestore]
    have htyp : isText (restoration.envelope redemption) "type" editRestore=true := by
      simp [Restoration.envelope,hpro,editEnvelope,isText,Json.get]
    have hed : memberText (restoration.envelope redemption) "editId" = editId := by
      simp [Restoration.envelope,hpro,editEnvelope,memberText,Json.get,coerceText]
    have hreq : memberText (restoration.envelope redemption) "requestDigest" = digest := by
      simp [Restoration.envelope,hpro,editEnvelope,memberText,Json.get,coerceText]
    have href : row.refundId=none := by
      rw [hsto.refund,Restoration.posting,postingOf,Restoration.refundId,hpro]
    rw [DigestKnown,hpro] at hdig
    simp only [hot,htyp,hed,hreq,Bool.false_eq_true,if_false,if_true,href]
    rw [requireFact_true (by simp),requireFact_true (by simpa using hdig)]
    simp only [noteDigest,hpro,hun,htot,bind,Except.bind,pure,Except.pure]
    rw [hlt]
    rfl
  | operation returned =>
    have htyp : isText (restoration.envelope redemption) "type" unitRestore=true := by
      simp [Restoration.envelope,hpro,unitEnvelope,isText,Json.get]
    have hot : isText (restoration.envelope redemption) "type" editRestore=false := by
      simp [Restoration.envelope,hpro,unitEnvelope,isText,Json.get,editRestore,unitRestore]
    have href : row.refundId=if returned.kind=.refund then some returned.id else none := by
      rw [hsto.refund,Restoration.posting,postingOf,Restoration.refundId,hpro]
    have hid : memberText (.obj [("kind",.str returned.kind.text),("id",.str returned.id)]) "id" =
        returned.id := by
      simp [memberText,Json.get,coerceText]
    simp only [hot,htyp,Bool.false_eq_true,if_false,if_true,
      operationOf_envelope restoration redemption hpro,isText_operation,
      memberText_operation,isText_kind,hid]
    rw [requireFact_true (by cases hkd : returned.kind <;> simp [href,hkd])]
    simp only [noteDigest,hpro,hun,htot,bind,Except.bind,pure,Except.pure]
    rw [hlt]
    rfl

end

end Stored

end SellRight.CreditFundingEnvelope
