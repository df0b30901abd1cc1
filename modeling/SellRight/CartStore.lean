import SellRight.FallibleSteps
import SellRight.OrderLifecycle
import SellRight.RowUpserts
import SellRight.RunHistory

/-!
# Carts and their writers

Cart rows and their lines with every request and job that writes them: the
creation, the line and identity patches, the merge, the conversion by a
checkout, the reopening and the two maintenance jobs. Each writer holds the
locks of the carts it writes, so it is one step; what it read before it took
the locks is part of its request. Pricing is left out but for its failure,
which rolls the whole request back.
-/

namespace SellRight.CartStore

open RowTable RowUpserts

/-- More distinct SKUs than this make a cart too large. -/
def maxCartLines : ℕ := 200

inductive CartStatus where
  | active | abandoned | converted | merged
  deriving DecidableEq

/-- Row of the cart table. -/
structure CartRow where
  (id token : String)
  status : CartStatus
  couponCodes : List String
  (email customerId convertedOrderId : Option String)
  (revision updatedAt : ℤ)
  expiresAt : Option ℤ
  deriving DecidableEq

/-- Row of the cart line table, in creation order. -/
structure CartLine where
  (cartId sku : String)
  /-- Variant the SKU named when the line was written. -/
  variantId : Option String
  quantity : ℤ
  deriving DecidableEq

/-- Unique key of a cart line. -/
def lineKey (line : CartLine) : String×String := (line.cartId,line.sku)

structure CartItem where
  sku : String
  quantity : ℤ

/-- The cart tables. -/
structure Carts where
  carts : List CartRow
  lines : List CartLine

/-- Why a mutation of an existing cart is refused. -/
inductive CartConflictCode where
  | converted | merged | stale | revisionRequired
  deriving DecidableEq

/-- How a step ended. -/
inductive Reply where
  | ok
  | missing
  | conflict (code : CartConflictCode)
  | tooLarge
  | authRequired
  | cartInvalid
  /-- A checkout of a converted cart answers with its order. -/
  | replay (orderId : Option String)
  | paid
  | paymentInProgress
  | failed
  deriving DecidableEq

/-- How lines are written. -/
inductive WriteMode where
  | set | increment | merge
  deriving DecidableEq

/-- Live variants by SKU. -/
abbrev Catalog := List (String×String)

variable (s : Carts)

/-- Cart under a token. -/
def findCart (token : String) : Option CartRow :=
  s.carts.find? fun row => decide (row.token=token)

def linesOf (cartId : String) : List CartLine :=
  s.lines.filter fun line => decide (line.cartId=cartId)

/-- Lines of a cart of at most the largest size. -/
def boundedCartItems (cartId : String) : Except Reply (List CartItem) :=
  if maxCartLines<(linesOf s cartId).length then .error .tooLarge
  else .ok ((linesOf s cartId).map fun line => ⟨line.sku,line.quantity⟩)

section
variable (items : List CartItem)

/-- Quantity under a SKU. -/
def quantityIn (sku : String) : ℤ :=
  ((items.find? fun item => decide (item.sku=sku)).map CartItem.quantity).getD 0

/-- Write one entry of an insertion-ordered map. -/
def putItem (item : CartItem) : List CartItem :=
  upsert CartItem.sku item.sku (fun other => {other with quantity := item.quantity}) item items

/-- Add units to an entry. -/
def addItem (item : CartItem) : List CartItem :=
  putItem items ⟨item.sku,quantityIn items item.sku+item.quantity⟩

end

/-- Set duplicates are last-write-wins, including removal; appends sum. -/
def normalizeCartLines (lines : List CartItem) (append : Bool) : List CartItem :=
  lines.foldl (fun items line =>
    if append then if line.quantity≤0 then items else addItem items line
    else putItem items line) []

/-- Insert a line or, when the cart has the SKU, rewrite its line. A merge
moves quantities only and keeps the variant of an existing line. -/
def upsertLine (cartId : String) (catalog : Catalog) (mode : WriteMode) (lines : List CartLine)
    (item : CartItem) : List CartLine :=
  upsert lineKey (cartId,item.sku) (fun line =>
    {line with
      quantity := if mode=.set then item.quantity else line.quantity+item.quantity
      variantId := if mode=.merge then line.variantId else catalog.lookup item.sku})
    ⟨cartId,item.sku,catalog.lookup item.sku,item.quantity⟩ lines

/-- SKUs a normalized write removes. -/
def removedSkus (items : List CartItem) : List String :=
  (items.filter fun item => decide (item.quantity≤0)).map CartItem.sku

/-- Entries of a normalized write that have units. -/
def positiveItems (items : List CartItem) : List CartItem :=
  items.filter fun item => decide (0 < item.quantity)

section
variable (s : Carts) (cartId : String) (items : List CartItem) (mode : WriteMode)

/-- Lines left by the removals of an absolute write. -/
def keptLines : List CartLine :=
  if mode=.set then
    deleteWhere (fun line => decide (line.cartId=cartId∧line.sku∈removedSkus items)) s.lines
  else s.lines

/-- Write normalized lines: removals first in an absolute write, then upserts. -/
def writeCartLines (catalog : Catalog) : Carts :=
  {s with
    lines := (positiveItems items).foldl (upsertLine cartId catalog mode)
      (keptLines s cartId items mode)}

end

/-- Whether a cart still takes mutations. -/
def isOpen (row : CartRow) : Bool := row.status=.active||row.status=.abandoned

/-- Conditional update of the cart row, telling whether it matched. -/
def updateCart (p : CartRow → Bool) (f : CartRow → CartRow) : Bool×Carts :=
  (s.carts.any p,{s with carts := updateWhere p f s.carts})

/-- Row after its lines were written: active again, with a new term. -/
def touchedRow (now expiresAt : ℤ) (row : CartRow) : CartRow := {row with
    updatedAt := now
    expiresAt := some expiresAt
    status := .active
    revision := row.revision+1}

/-- Write the lines of a locked cart and touch its row. -/
def applyLines (cartId : String) (lines : List CartItem) (append : Bool)
    (catalog : Catalog) (now expiresAt : ℤ) : Except Reply (Bool×Carts) :=
  let normalized := normalizeCartLines lines append
  let remaining := (((linesOf s cartId).filter fun line =>
    decide (line.sku∉removedSkus normalized)).map CartLine.sku).take (maxCartLines+1)
  let projected := (remaining++(positiveItems normalized).map CartItem.sku).dedup
  if maxCartLines<remaining.length||maxCartLines<projected.length then .error .tooLarge
  else .ok (updateCart
    (writeCartLines s cartId normalized (if append then .increment else .set) catalog)
    (fun row => decide (row.id=cartId)&&isOpen row) (touchedRow now expiresAt))

section
variable (row : CartRow) (expectedRevision : Option ℤ) (revisionRequired : Bool)

/-- Revision part of the shared guard: a revision sent along must be the
current one. -/
def revisionBlocker : Option CartConflictCode :=
  match expectedRevision with
  | none => if revisionRequired then some .revisionRequired else none
  | some expected => if row.revision≠expected then some .stale else none

/-- Shared guard of the mutations of a cart: terminal carts refuse, and a
revision sent along must be the current one. -/
def mutationBlocker : Option CartConflictCode :=
  match row.status with
  | .converted => some .converted
  | .merged => some .merged
  | _ => revisionBlocker row expectedRevision revisionRequired

end

/-- Answer with the priced cart; a failure rolls the step back. -/
def respond (s next : Carts) (cartId : String) (priced : Bool) : Reply×Carts :=
  match boundedCartItems next cartId with
  | .error reply => (reply,s)
  | .ok _ => if priced then (.ok,next) else (.failed,s)

/-- Creation of a cart, possibly with lines. -/
structure CreateRequest where
  (id token : String)
  couponCodes : List String
  (customerId email : Option String)
  items : List CartItem
  catalog : Catalog
  (now expiresAt : ℤ)
  priced : Bool

def newCart (request : CreateRequest) : CartRow :=
  ⟨request.id,request.token,.active,request.couponCodes,request.email,request.customerId,
    none,0,request.now,some request.expiresAt⟩

def createCart (request : CreateRequest) : Reply×Carts :=
  let inserted := {s with carts := s.carts++[newCart request]}
  let seed := request.items.filter fun item => decide (0 < item.quantity)
  if seed=[] then respond s inserted request.id request.priced
  else match applyLines inserted request.id seed false request.catalog request.now
      request.expiresAt with
    | .error reply => (reply,s)
    | .ok (_,next) => respond s next request.id request.priced

/-- Patch of the lines of a cart. -/
structure LinesRequest where
  token : String
  lines : List CartItem
  couponCodes : Option (List String)
  expectedRevision : Option ℤ
  catalog : Catalog
  (now expiresAt : ℤ)
  priced : Bool

/-- Whether a patch appends only. -/
def appendsOnly (request : LinesRequest) : Bool :=
  request.couponCodes.isNone && !request.lines.isEmpty &&
    request.lines.all fun line => decide (0<line.quantity)

/-- Patch the lines of a cart: an append without a revision, else an absolute
write. -/
def patchLines (request : LinesRequest) : Reply×Carts :=
  match findCart s request.token with
  | none => (.missing,s)
  | some row => match mutationBlocker row request.expectedRevision (!appendsOnly request) with
    | some code => (.conflict code,s)
    | none => match applyLines s row.id request.lines request.expectedRevision.isNone
        request.catalog request.now request.expiresAt with
      | .error reply => (reply,s)
      | .ok (false,next) => (.conflict .converted,next)
      | .ok (true,next) => match request.couponCodes with
        | none => respond s next row.id request.priced
        | some codes => respond s
            (updateCart next (fun cur => decide (cur.id=row.id))
              (fun cur => {cur with couponCodes := codes})).2 row.id request.priced

/-- Capture of an email for a cart. -/
structure IdentityRequest where
  (token email : String)
  expectedRevision : Option ℤ
  account : Option String
  now : ℤ
  priced : Bool

def patchIdentity (request : IdentityRequest) : Reply×Carts :=
  match findCart s request.token with
  | none => (.missing,s)
  | some row => match mutationBlocker row request.expectedRevision true with
    | some code => (.conflict code,s)
    | none => match boundedCartItems s row.id with
      | .error reply => (reply,s)
      | .ok _ =>
        match updateCart s (fun cur => decide (cur.id=row.id)&&isOpen cur) (fun cur =>
          {cur with
            email := some request.email
            customerId := row.customerId <|> request.account
            updatedAt := request.now
            revision := cur.revision+1}) with
        | (false,next) => (.conflict .converted,next)
        | (true,next) => respond s next row.id request.priced

/-- Merge of a customer's carts. -/
structure MergeRequest where
  token : String
  customerId : Option String
  /-- Carts of the customer read before the locks were taken. -/
  candidates : List String
  expectedRevision : Option ℤ
  catalog : Catalog
  now : ℤ
  priced : Bool

/-- Carts folded into a target: the locked candidates that still belong to the
customer and are active, in identifier order. -/
def mergeDonors (target : CartRow) (customerId : String) (candidates : List String) :
    List CartRow :=
  (((s.carts.filter fun row => decide (row.id=target.id∨row.id∈candidates)).insertionSort
    fun a b => a.id≤b.id)).filter fun row => decide (row.id≠target.id ∧
      row.customerId=some customerId∧row.status=.active∧row.convertedOrderId=none)

/-- Add a SKU to a set of SKUs. -/
def withSku (union : List String) (sku : String) : List String :=
  if sku∈union then union else union++[sku]

/-- Count one donor line, refusing a union of too many SKUs. -/
def gatherLine (gathered : List String×List CartItem) (item : CartItem) :
    Except Reply (List String×List CartItem) :=
  if maxCartLines<(withSku gathered.1 item.sku).length then .error .tooLarge
  else .ok (withSku gathered.1 item.sku,addItem gathered.2 item)

section
variable (s : Carts)

/-- Count the lines of one donor. -/
def gatherDonor (gathered : List String×List CartItem) (donor : CartRow) :
    Except Reply (List String×List CartItem) := do
  let items ← boundedCartItems s donor.id
  items.foldlM gatherLine gathered

/-- Tables without the lines of some carts. -/
def stripLines (cartIds : List String) : Carts :=
  {s with lines := deleteWhere (fun line => decide (line.cartId∈cartIds)) s.lines}

/-- Donors lose their lines and are retired. -/
def retireDonors (donorIds : List String) (now : ℤ) : Carts :=
  { carts := updateWhere (fun row => decide (row.id∈donorIds∧row.status=.active ∧
        row.convertedOrderId=none))
      (fun row => {row with status := .merged,updatedAt := now,revision := row.revision+1})
      s.carts
    lines := (stripLines s donorIds).lines}

/-- Quantities a merge adds to its target, when all carts and their union are
of at most the largest size. -/
def gatherDonors (targetId : String) (donors : List CartRow) :
    Except Reply (List CartItem) := do
  let items ← boundedCartItems s targetId
  let gathered ← donors.foldlM (gatherDonor s) ((items.map CartItem.sku).dedup,[])
  pure gathered.2

/-- Add the quantities gathered, retire the donors and touch the target. -/
def foldDonors (targetId : String) (donorIds : List String)
    (quantities : List CartItem) (request : MergeRequest) (customerId : String) : Bool×Carts :=
  updateCart
    (retireDonors (writeCartLines s targetId quantities .merge request.catalog) donorIds request.now)
    (fun cur => decide (cur.id=targetId)&&isOpen cur) (fun cur =>
      {cur with
        customerId := some customerId
        updatedAt := request.now
        revision := cur.revision+1})

/-- Merge a customer's other active carts into a cart. -/
def mergeCarts (request : MergeRequest) : Reply×Carts :=
  match request.customerId with
  | none => (.authRequired,s)
  | some customerId => match findCart s request.token with
    | none => (.missing,s)
    | some row => match mutationBlocker row request.expectedRevision true with
      | some code => (.conflict code,s)
      | none =>
        if maxCartLines<(row.id::request.candidates).length then (.tooLarge,s)
        else
          let donors := mergeDonors s row customerId request.candidates
          match gatherDonors s row.id donors with
          | .error reply => (reply,s)
          | .ok quantities =>
            match foldDonors s row.id (donors.map CartRow.id) quantities request customerId with
            | (false,next) => (.conflict .converted,next)
            | (true,next) => respond s next row.id request.priced

end

/-- Checkout of a cart. -/
structure ConvertRequest where
  token : String
  expectedRevision : Option ℤ
  orderId : String
  now : ℤ
  completes : Bool

/-- Convert a cart into an order. -/
def convertCart (request : ConvertRequest) : Reply×Carts :=
  match findCart s request.token with
  | none => (.cartInvalid,s)
  | some row =>
    if row.status=.converted then (.replay row.convertedOrderId,s)
    else if row.status=.merged then (.cartInvalid,s)
    else match request.expectedRevision with
      | none => (.conflict .revisionRequired,s)
      | some expected =>
        if row.revision≠expected then (.conflict .stale,s)
        else match boundedCartItems s row.id with
          | .error reply => (reply,s)
          | .ok items =>
            if items=[] then (.cartInvalid,s)
            else if !request.completes then (.failed,s)
            else match updateCart s (fun cur => decide (cur.id=row.id)&&isOpen cur &&
                decide (cur.convertedOrderId=none)) (fun cur =>
              {cur with
                status := .converted
                convertedOrderId := some request.orderId
                revision := cur.revision+1
                updatedAt := request.now}) with
              | (false,_) => (.failed,s)
              | (true,next) => (.ok,next)

/-- Reopening of a converted cart, under the locks of its order. -/
structure ReopenRequest where
  cartId : String
  /-- Order of the cart read before the locks were taken. -/
  orderId : String
  orderState : Option OrderLifecycle.OrderState
  cancellable : Bool
  (now expiresAt : ℤ)

section
variable (s : Carts)

/-- Reopen a converted cart whose order is unpaid; a cart that moved on rolls
the cancellation of the order back. -/
def reopenConvertedCart (request : ReopenRequest) : Reply×Carts :=
  let reopened := updateCart s (fun cur => decide (cur.id=request.cartId ∧
      cur.status=.converted∧cur.convertedOrderId=some request.orderId)) (fun cur =>
    {cur with
      status := .active
      convertedOrderId := none
      revision := cur.revision+1
      updatedAt := request.now
      expiresAt := some request.expiresAt})
  match request.orderState with
  | none => (.missing,s)
  | some .pendingPayment =>
    if request.cancellable then (.ok,if reopened.1 then reopened.2 else s)
    else (.paymentInProgress,s)
  | some .cancelled => (.ok,if reopened.1 then reopened.2 else s)
  | some _ => (.paid,s)

/-- Whether an active cart with lines has been idle since the cutoff. -/
def abandonable (cutoff : ℤ) (row : CartRow) : Bool :=
  decide (row.status=.active∧row.convertedOrderId=none∧row.updatedAt<cutoff∧linesOf s row.id≠[])

/-- First rows of a scan in identifier order. -/
def scanCarts (p : CartRow → Bool) (take : ℕ) : List String :=
  (((s.carts.filter p).insertionSort fun a b => a.id≤b.id).take take).map CartRow.id

/-- One transaction of the abandonment job. -/
def abandonStaleCarts (cutoff now : ℤ) (take : ℕ) : Reply×Carts :=
  let stale := scanCarts s (abandonable s cutoff) take
  (.ok,{s with
    carts := updateWhere (fun row => decide (row.id∈stale)&&abandonable s cutoff row)
      (fun row => {row with status := .abandoned,updatedAt := now,revision := row.revision+1})
      s.carts})

/-- Whether an expired cart without lines may be purged. -/
def ttlPurgeable (now : ℤ) (row : CartRow) : Bool :=
  decide ((∃ expiresAt∈row.expiresAt, expiresAt<now) ∧
    (row.status=.active∨row.status=.merged)∧row.convertedOrderId=none ∧
    linesOf s row.id=[])

end

/-- Whether an abandoned cart is past its retention. -/
def agedOut (retentionCutoff : ℤ) (row : CartRow) : Bool :=
  decide (row.status=.abandoned∧row.convertedOrderId=none∧row.updatedAt<retentionCutoff)

/-- Abandoned carts the retention rule purges, if the store has one. -/
def agedCarts (retentionCutoff : Option ℤ) (take : ℕ) : List String :=
  match retentionCutoff with
  | none => []
  | some cutoff => scanCarts s (agedOut cutoff) take

/-- One transaction of the cleanup job. The lines of the carts found go first;
then each rule deletes what it still finds eligible. -/
def cleanupExpiredCarts (now : ℤ) (retentionCutoff : Option ℤ)
    (ttlTake agedTake : ℕ) : Reply×Carts :=
  let ttlDoomed := scanCarts s (ttlPurgeable s now) ttlTake
  let aged := agedCarts s retentionCutoff agedTake
  let stripped := stripLines s (ttlDoomed++aged)
  let expired := deleteWhere (fun row => decide (row.id∈ttlDoomed) &&
    ttlPurgeable stripped now row) stripped.carts
  (.ok,{stripped with
    carts := deleteWhere (fun row => decide (row.id∈aged) &&
      (retentionCutoff.any fun cutoff => agedOut cutoff row)) expired})

/-- One atomic step of a client or of a job. -/
inductive Action where
  | create (request : CreateRequest)
  | lines (request : LinesRequest)
  | identity (request : IdentityRequest)
  | merge (request : MergeRequest)
  | convert (request : ConvertRequest)
  | reopen (request : ReopenRequest)
  | abandon (cutoff now : ℤ) (take : ℕ)
  | cleanup (now : ℤ) (retentionCutoff : Option ℤ) (ttlTake agedTake : ℕ)

/-- One step of a client or of a job. -/
def step : Action → Reply×Carts
  | .create request => createCart s request
  | .lines request => patchLines s request
  | .identity request => patchIdentity s request
  | .merge request => mergeCarts s request
  | .convert request => convertCart s request
  | .reopen request => reopenConvertedCart s request
  | .abandon cutoff now take => abandonStaleCarts s cutoff now take
  | .cleanup now retentionCutoff ttlTake agedTake =>
    cleanupExpiredCarts s now retentionCutoff ttlTake agedTake

end SellRight.CartStore
