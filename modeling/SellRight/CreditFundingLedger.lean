import SellRight.FallibleSteps
import SellRight.JsonStable
import SellRight.CreditMath

/-!
# Funding ledger of a redemption

Reader of the restoration history of one posted redemption. Every row of the
history names its order line and carries either a versioned envelope, which
lists the units it changed with their cents before and after, or no envelope
and then counts as a return of the first units of its line. The reader
rebuilds the chain of changes of every unit and refuses a history in which a
row, an envelope or a chain does not fit.

An index is a natural number, and an index within an array is always an
exact integer of the runtime, so that test is not repeated.
-/

namespace SellRight.CreditFundingLedger

open JsonText JsonStable KeyedRecord CreditMath

/-- Reason class of a refusal. -/
inductive RefusalCode where
  | invalidRedemption | ambiguousHistory | invalidRequest | replayConflict

/-- A refused plan or history. Its event and its operation are constant
texts. -/
structure Refusal where
  code : RefusalCode
  message : String

/-- Result of a funding computation. -/
abbrev Funding := Except Refusal

/-- Refuse unless the fact holds. -/
def requireFact (fact : Bool) (code : RefusalCode) (message : String) : Funding Unit :=
  if fact then .ok () else .error ⟨code,message⟩

/-- Cents in the stored range. -/
def money (cents : Int) : Bool := decide (0≤cents∧cents ≤ maxCreditCents)

/-- Sum that must stay in the stored range. -/
def sum (values : List Int) (code : RefusalCode) : Funding Int := do
  requireFact (money values.sum) code "Credit sum exceeds integer cents"
  return values.sum

/-- A hexadecimal digit of either case. -/
def isHexDigit (c : Char) : Bool := (hexValue c).isSome

/-- A UUID in its five groups. -/
def isUuid (text : String) : Bool :=
  decide (text.toList.length=36)&&text.toList.zipIdx.all fun entry =>
    if entry.2∈[8,13,18,23] then decide (entry.1 = '-') else isHexDigit entry.1

/-- A SHA-256 digest in lower-case hexadecimal. -/
def isDigest (text : String) : Bool :=
  decide (text.toList.length=64)&&text.toList.all fun c => isHexDigit c && !c.isUpper

/-- Length in UTF-16 code units. -/
def utf16Length (text : String) : ℕ := (text.toList.map fun c => if c.toNat<65536 then 1 else 2).sum

mutual

/-- Text a value is coerced to. -/
def coerceText : Json → String
  | .null => "null"
  | .bool true => "true"
  | .bool false => "false"
  | .num n => String.ofList (renderInt n)
  | .real lexeme => String.ofList lexeme
  | .str text => text
  | .arr items => ",".intercalate (coerceItems items)
  | .obj _ => "[object Object]"

/-- Texts the items of an array are coerced to. -/
def coerceItems : List Json → List String
  | [] => []
  | .null::items => "" :: coerceItems items
  | item::items => coerceText item::coerceItems items

end

variable (value : Json)

/-- Text of a member that may be missing. -/
def memberText (name : String) : String :=
  match value.get name with
  | some member => coerceText member
  | none => "undefined"

/-- The member is exactly this string. -/
def isText (name text : String) : Bool :=
  match value.get name with
  | some (.str member) => decide (member=text)
  | _ => false

/-- The member is a string that passes a test. -/
def hasText (name : String) (test : String → Bool) : Bool :=
  match value.get name with
  | some (.str member) => test member
  | _ => false

/-- The member is this integer. -/
def isNumber (name : String) (n : Int) : Bool :=
  match value.get name with
  | some (.num member) => decide (member=n)
  | _ => false

/-- An object that is not an array. -/
def isObject : Json → Bool
  | .obj _ => true
  | _ => false

/-- Items of an array member. -/
def itemsOf (name : String) : List Json :=
  match value.get name with
  | some (.arr items) => items
  | _ => []

/-- The `operation` member of an envelope. -/
def operationOf (envelope : Json) : Json := (envelope.get "operation").getD .null

/-- Type text of an edit restoration. -/
def editRestore : String := "account_credit.edit_restore"

/-- Type text of a refund or manual restoration. -/
def unitRestore : String := "account_credit.unit_restore"

/-- Idempotency key an envelope stands under. -/
def keyFor (envelope : Json) : String :=
  if isText envelope "type" editRestore then
    "edit:" ++ memberText envelope "editId" ++ ":credit:" ++ memberText envelope "redemptionId" ++
      ":line:" ++ memberText envelope "orderLineId" ++ ":" ++ memberText envelope "cause"
  else if isText (operationOf envelope) "kind" "refund" then
    "refund:" ++ memberText (operationOf envelope) "id" ++ ":line:" ++
      memberText envelope "orderLineId"
  else "manual:" ++ memberText (operationOf envelope) "id"

/-- Identity an explicit return may carry. -/
def operationIdOk (refund : Bool) (id : String) : Bool :=
  decide (0<utf16Length id)&&decide (utf16Length id≤153)&&(!refund||isUuid id)

/-- Well-formed provenance of a refund or manual restoration. -/
def unitProvenance (raw : Json) : Bool :=
  isNumber raw "version" 1&&isText raw "cause" "quantity_return" &&
    isObject (operationOf raw) &&
    decide (memberText (operationOf raw) "kind" ∈ ["refund", "manual_return"]) &&
    hasText (operationOf raw) "id" (operationIdOk (isText (operationOf raw) "kind" "refund")) &&
    !(itemsOf raw "units").isEmpty

/-- Well-formed provenance of an edit restoration. -/
def editProvenance (raw : Json) : Bool := isNumber raw "version" 1 &&
    decide (memberText raw "cause" ∈ ["quantity_return", "unit_correction"]) &&
    hasText raw "editId" isUuid&&hasText raw "requestDigest" isDigest &&
    !(itemsOf raw "units").isEmpty

/-- Envelope of a history row; rows without one are legacy rows. -/
def parseEnvelope (row : CreditTransaction) : Funding (Option Json) :=
  match row.allocation with
  | none => .ok none
  | some text =>
    match parse text with
    | none => .error ⟨.ambiguousHistory, "Unreadable restoration allocation"⟩
    | some raw =>
      if !isObject raw then .ok none
      else if memberText raw "type" ∉ [editRestore,unitRestore] then do
        requireFact (!hasText raw "type" fun type => "account_credit.".toList.isPrefixOf type.toList)
          .ambiguousHistory "Unsupported account-credit restoration provenance"
        return none
      else if isText raw "type" unitRestore then do
        requireFact (unitProvenance raw) .ambiguousHistory
          "Invalid unit-restoration operation provenance"
        return some raw
      else do
        requireFact (editProvenance raw) .ambiguousHistory "Invalid versioned restoration provenance"
        return some raw

variable (redemption : CreditTransaction)

def readRedemption : Funding (String×Allocation) :=
  match redemption.orderId, redemption.operationalAllocation with
  | some orderId, some original => do
    requireFact (decide (redemption.kind=.redeem)&&decide (redemption.status=.posted) &&
        isUuid redemption.id&&isUuid orderId&&isUuid redemption.accountCreditId &&
        money redemption.amount&&decide (0<redemption.amount) &&
        decide (redemption.delta = -redemption.amount)) .invalidRedemption
      "Proven POSTED redemption & native order allocation required"
    requireFact (!original.entries.isEmpty) .invalidRedemption "Missing full redemption allocation"
    requireFact (original.entries.all fun entry =>
        isUuid entry.1 && !entry.2.isEmpty&&entry.2.all money) .invalidRedemption
      "Invalid immutable native-line unit vector"
    let total ← sum (original.entries.flatMap Prod.snd) .invalidRedemption
    requireFact (decide (total=redemption.amount)) .invalidRedemption
      "Full allocation differs from redemption amount"
    return (orderId,original)
  | _, _ => .error ⟨.invalidRedemption, "Proven POSTED redemption & native order allocation required"⟩

/-- Cents left on every unit and the units already returned. -/
structure Vectors where
  remaining : Allocation
  returnedIndexes : Record String (List ℕ)

/-- Legacy returns of one line. -/
structure LegacyGroup where
  quantity : Int
  amounts : List Int

/-- What the first pass over the history collects. -/
structure HistoryScan where
  (ids keys : List String)
  legacy : Record String LegacyGroup
  modern : List (CreditTransaction×Json)

/-- Nothing scanned. -/
def HistoryScan.empty : HistoryScan := ⟨[],[],.empty,[]⟩

/-- Add a legacy row to its line's group. -/
def addLegacy (legacy : Record String LegacyGroup) (line : String) (quantity amount : Int) :
    Record String LegacyGroup :=
  let group := (legacy.get line).getD ⟨0,[]⟩
  legacy.set line ⟨group.quantity+quantity,group.amounts++[amount]⟩

/-- First pass over one history row. -/
def scanRow (original : Allocation) (scan : HistoryScan)
    (row : CreditTransaction) : Funding HistoryScan := do
  let line := row.orderLineId.getD ""
  requireFact (!row.id.isEmpty&&decide (row.id∉scan.ids) && !row.idempotencyKey.isEmpty &&
      decide (row.idempotencyKey∉scan.keys)&&decide (row.kind=.restore) &&
      decide (row.status=.posted)&&decide (row.orderId=redemption.orderId) &&
      decide (row.accountCreditId=redemption.accountCreditId) &&
      decide (row.relatedTransactionId=some redemption.id)&&row.orderLineId.isSome &&
      (original.get line).isSome&&money row.amount&&decide (row.delta=row.amount))
    .ambiguousHistory "Restoration identity, native line or posted amount is unproven"
  let seen : HistoryScan :=
    {scan with ids := scan.ids++[row.id],keys := scan.keys++[row.idempotencyKey]}
  match ← parseEnvelope row with
  | some envelope => return {seen with modern := scan.modern++[(row,envelope)]}
  | none =>
    requireFact (decide (0<row.quantity.getD 0)) .ambiguousHistory
      "Unversioned monetary restoration requires reconciliation"
    return {seen with legacy := addLegacy scan.legacy line (row.quantity.getD 0) row.amount}

/-- The legacy returns of one line take its first units. -/
def applyLegacy (original : Allocation) (vectors : Vectors) (entry : String×LegacyGroup) :
    Funding Vectors := do
  let units := (original.get entry.1).getD []
  let taken := entry.2.quantity.toNat
  requireFact (decide (entry.2.quantity≤units.length)) .ambiguousHistory
    "Legacy restoration fails frozen prefix proof"
  let restored ← sum entry.2.amounts .ambiguousHistory
  let frozen ← sum (units.take taken) .ambiguousHistory
  requireFact (decide (restored=frozen)) .ambiguousHistory
    "Legacy restoration fails frozen prefix proof"
  return {
    remaining := vectors.remaining.update entry.1 fun cents =>
      List.replicate taken 0++cents.drop taken
    returnedIndexes := vectors.returnedIndexes.update entry.1 fun _ => List.range taken}

/-- A change of one original unit. -/
structure UnitChange where
  index : ℕ
  (before after : Int)

/-- A change read from an envelope. -/
def unitChange (raw : Json) : Option UnitChange :=
  match raw.get "index", raw.get "before", raw.get "after" with
  | some (.num index),some (.num before),some (.num after) =>
    if 0 ≤ index then some ⟨index.toNat,before,after⟩ else none
  | _, _, _ => none

/-- Changes of an envelope on a line of the given length. -/
def readUnits (length : ℕ) (returned : List ℕ) (quantityReturn : Bool) :
    List Json → List ℕ → Funding (List UnitChange)
  | [],_ => .ok []
  | raw::rest, seen =>
    match unitChange raw with
    | none => .error ⟨.ambiguousHistory, "Invalid, duplicate or legacy-returned unit index"⟩
    | some u => do
      requireFact (decide (u.index<length)&&decide (u.index∉seen)&&money u.before &&
          money u.after&&decide (u.after≤u.before) &&
          (if quantityReturn then decide (u.after=0) else decide (u.after<u.before)) &&
          decide (u.index∉returned)) .ambiguousHistory
        "Invalid, duplicate or legacy-returned unit index"
      let more ← readUnits length returned quantityReturn rest (seen++[u.index])
      return u::more

/-- A change with its cause, as the chain of a unit keeps it. -/
structure UnitEdge where
  (before after : Int)
  quantityReturn : Bool

/-- What the second pass over the envelopes collects. -/
structure ModernScan where
  transitions : List ((String×ℕ)×UnitEdge)
  editDigests : Record String String

/-- Nothing read. -/
def ModernScan.empty : ModernScan := ⟨[],.empty⟩

/-- An allocation as a stored object. -/
def allocationJson (allocation : Allocation) : Json :=
  .obj (allocation.entries.map fun entry => (entry.1,.arr (entry.2.map Json.num)))

/-- The stored allocation of a row. -/
def rowAllocationJson (allocation : Option Allocation) : Json :=
  match allocation with
  | some allocation => allocationJson allocation
  | none => .null

/-- Second pass over one row with its envelope. -/
def readModern (original : Allocation) (vectors : Vectors)
    (scan : ModernScan) (entry : CreditTransaction×Json) : Funding ModernScan := do
  let row := entry.1
  let e := entry.2
  let line := row.orderLineId.getD ""
  let quantityReturn := isText e "cause" "quantity_return"
  requireFact (isText e "redemptionId" redemption.id &&
      isText e "orderId" (redemption.orderId.getD "") &&
      isText e "accountCreditId" redemption.accountCreditId&&isText e "orderLineId" line &&
      decide (row.idempotencyKey=keyFor e) &&
      decide (row.quantity=some (if quantityReturn then ((itemsOf e "units").length : Int) else 0)))
    .ambiguousHistory "Envelope & restoration row differ"
  if isText e "type" unitRestore then
    requireFact (if isText (operationOf e) "kind" "refund" then
        decide (row.refundId=some (memberText (operationOf e) "id"))
      else decide (row.refundId=none)) .ambiguousHistory
      "Restoration operation differs from refund linkage"
  let editDigests ← if isText e "type" editRestore then do
      requireFact (decide (row.refundId=none)) .ambiguousHistory
        "Edit restoration cannot carry refund linkage"
      let known := scan.editDigests.get (memberText e "editId")
      requireFact (decide (known=none∨known=some (memberText e "requestDigest")))
        .ambiguousHistory "Edit has conflicting request digests"
      pure (scan.editDigests.set (memberText e "editId") (memberText e "requestDigest"))
    else pure scan.editDigests
  let changes ← readUnits ((original.get line).getD []).length
    ((vectors.returnedIndexes.get line).getD []) quantityReturn (itemsOf e "units") []
  let cents := changes.map fun u => u.before-u.after
  let total ← sum cents .ambiguousHistory
  requireFact (decide (total=row.amount) &&
      decide (serialize (rowAllocationJson row.operationalAllocation) =
        serialize (allocationJson (.single line cents)))) .ambiguousHistory
    "Restoration allocation does not conserve cents"
  return {
    transitions := scan.transitions++changes.map fun u =>
      ((line,u.index),⟨u.before,u.after,quantityReturn⟩)
    editDigests}

/-- Edges of one unit in reading order. -/
def chainOf (transitions : List ((String×ℕ)×UnitEdge)) (line : String) (index : ℕ) :
    List UnitEdge :=
  (transitions.filter fun entry => entry.1=(line,index)).map Prod.snd

/-- Order of the edges of a unit: more cents before first, returns last. -/
def edgeOrder (a b : UnitEdge) : Bool :=
  decide (b.before<a.before) || (decide (a.before=b.before)&&(!a.quantityReturn||b.quantityReturn))

/-- Follow a chain of edges from the current cents. -/
def followChain : List UnitEdge → Int → Bool → Funding (Int×Bool)
  | [],current,returned => .ok (current,returned)
  | edge::chain, current, returned => do
    requireFact (!returned&&decide (edge.before=current)) .ambiguousHistory
      "Unit restoration chain has a gap, overlap or double consumption"
    followChain chain edge.after edge.quantityReturn

section
variable (transitions : List ((String×ℕ)×UnitEdge))

def settleUnit (line : String) (vectors : Vectors)
    (entry : Int×ℕ) : Funding Vectors := do
  let chain := (chainOf transitions line entry.2).insertionSort fun a b => edgeOrder a b
  let (current,returned) ← followChain chain entry.1 false
  return {
    remaining := if chain.isEmpty then vectors.remaining
      else vectors.remaining.update line fun cents => cents.set entry.2 current
    returnedIndexes := if returned then
        vectors.returnedIndexes.update line fun indexes => indexes++[entry.2]
      else vectors.returnedIndexes}

def settleLine (vectors : Vectors) (entry : String×List Int) : Funding Vectors :=
  entry.2.zipIdx.foldlM (settleUnit transitions entry.1) vectors

end

structure CreditFundingState where
  /-- Cents left by line and original index. -/
  remaining : Allocation
  returnedIndexes : Record String (List ℕ)
  (redeemed restored retained : Int)

/-- Indexes of every line in ascending order. -/
def sortIndexes (indexes : Record String (List ℕ)) : Record String (List ℕ) :=
  indexes.mapValues fun _ list => list.insertionSort (· ≤ ·)

/-- State before any restoration. -/
def startVectors (original : Allocation) : Vectors := ⟨original,original.mapValues fun _ _ => []⟩

section
variable (redemption : CreditTransaction) (history : List CreditTransaction) (complete : Bool)

def readState : Funding (CreditFundingState×List (CreditTransaction×Json)) := do
  let (_,original) ← readRedemption redemption
  requireFact complete .ambiguousHistory "Complete restoration history required"
  let scan ← history.foldlM (scanRow redemption original) .empty
  let legacy ← scan.legacy.entries.foldlM (applyLegacy original) (startVectors original)
  let modern ← scan.modern.foldlM (readModern redemption original legacy) .empty
  let vectors ← original.entries.foldlM (settleLine modern.transitions) legacy
  let restored ← sum (history.map CreditTransaction.amount) .ambiguousHistory
  let retained ← sum (vectors.remaining.entries.flatMap Prod.snd) .ambiguousHistory
  requireFact (decide (restored+retained=redemption.amount)) .ambiguousHistory
    "Full redemption conservation failed"
  return ({
    remaining := vectors.remaining
    returnedIndexes := sortIndexes vectors.returnedIndexes
    redeemed := redemption.amount
    restored
    retained},scan.modern)

def readCreditFundingState : Funding CreditFundingState :=
  (readState redemption history complete).map Prod.fst

end

/-- An accepted fact lets the computation go on. -/
theorem requireFact_true {fact : Bool} (hfac : fact=true) (code : RefusalCode)
    (message : String) : requireFact fact code message=.ok () := by
  rw [requireFact,if_pos hfac]

/-- An accepted requirement was met. -/
theorem requireFact_eq_ok {fact : Bool} {code : RefusalCode} {message : String}
    (hok : requireFact fact code message=.ok ()) : fact=true := by
  by_contra hfac
  rw [requireFact,if_neg hfac] at hok
  cases hok

/-- A sum in range is returned. -/
theorem sum_eq {values : List Int} (hval : 0≤values.sum∧values.sum ≤ maxCreditCents)
    (code : RefusalCode) : sum values code=.ok values.sum := by
  rw [sum,requireFact_true (by simpa [money] using hval)]
  rfl

theorem sum_eq_ok {values : List Int} {code : RefusalCode} {total : Int}
    (hok : sum values code=.ok total) :
    total=values.sum∧0≤values.sum∧values.sum ≤ maxCreditCents := by
  rw [sum,FallibleSteps.bind_eq_ok] at hok
  obtain ⟨_,hmon,hok⟩ := hok
  refine ⟨(Except.ok.inj hok).symm,?_⟩
  simpa [money] using requireFact_eq_ok hmon

end SellRight.CreditFundingLedger
