import Mathlib.Tactic

/-!
# Reading a pricing graph

A current pricing snapshot names the durable edit row that activated it and the
digest of its predecessor; refunds and retained shipping name further
snapshots by digest. The reader resolves digests recursively through one
resolver that keeps a cache and two sets of what is being visited, while the
shipping reader keeps a set of its own. Here the recursion, the sets, the
lookups and the bindings that guard them are written out; every check that
calls none of the readers is an arbitrary function that may throw.
-/

namespace SellRight.PricingGraph

/-- How a reading stops without a result. -/
inductive Stop where
  | threw (message : String)
  /-- The recursion was cut off; the source has no such outcome. -/
  | outOfFuel

/-- Recalculation of retained shipping. -/
inductive ShippingMode where
  | keep | revalidatePromotions | recalculateKeepPromotions
  deriving DecidableEq

/-- Retained shipping of a snapshot. -/
structure RetainedShipping where
  mode : ShippingMode
  sourceDigest : String

/-- Raw pricing snapshot: what the readers branch on, and the rest. -/
inductive Snapshot (β : Type) where
  | imported (editBasis : Option String) (rest : β)
  /-- Version 1, or anything that is neither imported nor version 2. -/
  | native (retained : Option RetainedShipping) (rest : β)
  | edited (editId predecessorSnapshotDigest : String) (origin : Snapshot β)
      (retained : Option RetainedShipping) (rest : β)

/-- Contents of a durable edit row after the edit. -/
structure RowAfter (β : Type) where
  (activatedPricingSnapshot currentPricing : Option (Snapshot β))
  currentPricingDigest : Option String

/-- Durable edit row. -/
structure CreditPricingSource (β : Type) where
  (id orderId : String)
  /-- Snapshot before the edit; none when the column holds no object. -/
  before : Option (Option (Snapshot β))
  /-- Contents after the edit; none when the column holds no object. -/
  after : Option (RowAfter β)
  rest : β

/-- Snapshot with everything the readers derived from it. -/
structure View (β γ : Type) where
  snapshot : Snapshot β
  /-- Lines, units, custody and the other derived facts. -/
  facts : γ

/-- Credit evidence of the order. -/
structure Evidence (ρ : Type) where
  orderId : Option String
  refunds : List ρ

/-- Order a direct edit belongs to, for the shipping reader. -/
structure ShippingOrderContext where
  orderId : String
  shippingMethodCode : Option String

/-- Everything that calls none of the recursive readers. Each function stands
for the checks and derivations of one stretch of the source and may throw. -/
structure Checks (β γ φ ρ κ : Type) where
  digest : Option (Snapshot β) → String
  serial : Snapshot β → String
  importedView : Snapshot β → Except String γ
  strict : Option RetainedShipping → β → Except String (Option RetainedShipping×β)
  v1View : Option RetainedShipping → β → Except String γ
  v2View : Snapshot β → Except String γ
  profile : Snapshot β → Except String Unit
  receipt : Snapshot β → CreditPricingSource β → Except String Unit
  /-- Proposal against the predecessor, and the restorations of the activation. -/
  proposal : Snapshot β → CreditPricingSource β → View β γ → Except String Unit
  /-- Whether a refund belongs to the evidence of the activation. -/
  atActivation : Snapshot β → View β γ → ρ → Except String Bool
  /-- Units consumed before any refund is looked at. -/
  consumedStart : View β γ → List ρ → Except String κ
  /-- Digest of the snapshot whose units a refund froze, if it froze any. -/
  frozenDigest : View β γ → ρ → Except String (Option String)
  /-- Account for a refund, whose source view is given when it has one. -/
  consumeRefund : κ → View β γ → ρ → Option (View β γ) → Except String (κ×γ)
  /-- Posted restorations against the frozen selections. -/
  postings : κ → View β γ → Except String Unit
  frozen : Snapshot β → κ → Except String Unit
  /-- Rebuild before the retained shipping is looked at. -/
  rebuildStart : Snapshot β → View β γ → Except String Unit
  /-- Rest of the rebuild, against the facts of the retained shipping. -/
  rebuild : Snapshot β → View β γ → Option φ → Except String Unit
  importedShipping : View β γ → Except String φ
  /-- Shipping facts of a snapshot that retains none. -/
  scalarShipping : View β γ → Option ShippingOrderContext → φ
  directMoney : View β γ → CreditPricingSource β → Except String Unit
  /-- Saved money before a direct edit, against its predecessor. -/
  directPrior : CreditPricingSource β → Snapshot β → Except String Unit
  savedMethod : CreditPricingSource β → Option String
  /-- Shipping facts of a direct edit of an imported order. -/
  directImported : View β γ → CreditPricingSource β → Except String φ
  /-- Facts of a direct edit from those of its predecessor. -/
  directShipping : View β γ → φ → Except String φ
  predecessorLines : CreditPricingSource β → Except String Unit
  /-- Facts of a version 2 snapshot from those of its source. -/
  currentShipping : View β γ → φ → Except String φ
  orderLines : View β γ → Except String Unit
  withConsumed : View β γ → κ → γ

/-- Context of a reading. -/
structure Context (β ρ : Type) where
  pricingSources : List (CreditPricingSource β)
  creditEvidence : Option (Evidence ρ)

/-- Variables shared by all calls of one reading. -/
structure Reading (β γ : Type) where
  cache : List (String×View β γ)
  (visiting visitingEdits : List String)

/-- A resolver finds the view of a digest. -/
abbrev Resolver (β γ : Type) := String → Reading β γ → Except Stop (View β γ×Reading β γ)

variable {α β γ φ ρ κ : Type}

/-- Throw unless a fact holds. -/
def requireFact (ok : Bool) (message : String) : Except Stop Unit :=
  if ok then .ok () else .error (.threw message)

/-- Run a check that calls no reader. -/
def check (result : Except String α) : Except Stop α :=
  match result with
  | .ok value => .ok value
  | .error message => .error (.threw message)

/-- A value that must be there. -/
def present (value : Option α) (message : String) : Except Stop α :=
  match value with
  | some found => .ok found
  | none => .error (.threw message)

/-- Set an entry of a map. -/
def setEntry (entries : List (String×α)) (key : String) (value : α) : List (String×α) :=
  (key,value)::entries.filter fun entry => entry.1 != key

variable (c : Checks β γ φ ρ κ)

/-- Add a snapshot to the sources under its digest. -/
def addSource (sources : List (String×Snapshot β))
    (snapshot : Option (Snapshot β)) : Except Stop (List (String×Snapshot β)) :=
  match snapshot with
  | none => .ok sources
  | some s =>
    match sources.lookup (c.digest (some s)) with
    | none => .ok (setEntry sources (c.digest (some s)) s)
    | some old =>
      if c.serial old=c.serial s then .ok (setEntry sources (c.digest (some s)) s)
      else .error (.threw "duplicate source digest differs")

/-- Snapshot stored before an edit. -/
def beforePricing (row : CreditPricingSource β) : Option (Snapshot β) := row.before.bind id

/-- Snapshot an activation stored. -/
def activatedPricing (row : CreditPricingSource β) : Option (Snapshot β) :=
  row.after.bind RowAfter.activatedPricingSnapshot

def addRow
    (gathered : List (String×CreditPricingSource β)×List (String×Snapshot β))
    (row : CreditPricingSource β) :
    Except Stop (List (String×CreditPricingSource β)×List (String×Snapshot β)) := do
  requireFact ((gathered.1.lookup row.id).isNone&&row.before.isSome&&row.after.isSome)
    "duplicate or malformed durable pricing row"
  let sources ← addSource c gathered.2 (beforePricing row)
  let sources ← addSource c sources (activatedPricing row)
  .ok ((row.id,row)::gathered.1,sources)

/-- Origin of a version 2 snapshot. -/
def originOf : Snapshot β → Option (Snapshot β)
  | .edited _ _ origin _ _ => some origin
  | _ => none

/-- Every durable row and every snapshot that can be resolved. -/
structure Graph (β : Type) where
  rows : List (String×CreditPricingSource β)
  sources : List (String×Snapshot β)

section
variable (c : Checks β γ φ ρ κ)

/-- Gather the raw snapshot, the durable rows and the origins. -/
def gather (context : Context β ρ) (raw : Snapshot β) :
    Except Stop (Graph β) := do
  let sources ← addSource c [] (some raw)
  let gathered ← context.pricingSources.foldlM (addRow c) ([],sources)
  let sources ← gathered.2.foldlM (fun sources entry => addSource c sources (originOf entry.2))
    gathered.2
  .ok ⟨gathered.1,sources⟩

/-- Account for one refund; the source it froze is resolved. -/
def consumeOne (resolve : Resolver β γ) (progress : (κ×View β γ)×Reading β γ) (refund : ρ) :
    Except Stop ((κ×View β γ)×Reading β γ) := do
  let view := progress.1.2
  let frozen ← check (c.frozenDigest view refund)
  match frozen with
  | none =>
    let (consumed,facts) ← check (c.consumeRefund progress.1.1 view refund none)
    .ok ((consumed,{view with facts := facts}),progress.2)
  | some hash =>
    let (source,st) ← resolve hash progress.2
    let (consumed,facts) ← check (c.consumeRefund progress.1.1 view refund (some source))
    .ok ((consumed,{view with facts := facts}),st)

/-- Units of a view that refunds consumed. The view is the cached object of
its digest, so what is recorded in it is recorded in the cache. -/
def consumedIds (resolve : Resolver β γ) (hash : String)
    (view : View β γ) (refunds : List ρ) (validatePostingJoin : Bool) (st : Reading β γ) :
    Except Stop ((κ×View β γ)×Reading β γ) := do
  let start ← check (c.consumedStart view refunds)
  let ((consumed,view),st) ← refunds.foldlM (consumeOne c resolve) ((start,view),st)
  if validatePostingJoin then check (c.postings consumed view)
  .ok ((consumed,view),{st with cache := setEntry st.cache hash view})

/-- Rows a direct edit may come from. -/
def directCandidates (sources : List (CreditPricingSource β))
    (orderId hash : String) : List (CreditPricingSource β) :=
  sources.filter fun row => row.orderId == orderId&&row.after.any fun after =>
    after.currentPricingDigest == some hash&&c.digest after.currentPricing == hash

end

/-- Number of different edits among the durable rows. -/
def ancestry (sources : List (CreditPricingSource β)) : ℕ :=
  (sources.map CreditPricingSource.id).dedup.length

/-- Snapshot and view of a version 1 source read strictly. -/
def nativeView (retained : Option RetainedShipping) (rest : β) :
    Except Stop (View β γ) := do
  let (retained,rest) ← check (c.strict retained rest)
  let facts ← check (c.v1View retained rest)
  .ok ⟨.native retained rest,facts⟩

def importedOriginView (origin : Snapshot β) : Except Stop (View β γ) := do
  let facts ← check (c.importedView origin)
  .ok ⟨origin,facts⟩

/-- A reader of shipping facts: the predecessor, the digests seen on the way
and the order of a direct edit. -/
abbrev ShippingReader (β γ φ : Type) := View β γ → List String → Option ShippingOrderContext →
  Reading β γ → Except Stop (φ×Reading β γ)

/-- Shipping facts of a version 1 snapshot that retains shipping: those of the
direct edit that left it behind. -/
def directSourceFacts (context : Context β ρ) (evidence : Evidence ρ)
    (recurse : ShippingReader β γ φ) (predecessor : View β γ) (retained : RetainedShipping)
    (hash : String) (seen : List String) (orderContext : Option ShippingOrderContext)
    (st : Reading β γ) : Except Stop (φ×Reading β γ) := do
  let orderId ← present ((orderContext.map ShippingOrderContext.orderId).or evidence.orderId)
    "direct shipping durable ancestry exhausted"
  requireFact (decide (seen.length≤ancestry context.pricingSources))
    "direct shipping durable ancestry exhausted"
  match directCandidates c context.pricingSources orderId hash with
  | [row] =>
    requireFact (row.before.isSome&&row.after.isSome) "direct shipping durable row shape"
    check (c.directMoney predecessor row)
    match beforePricing row with
    | none =>
      let facts ← check (c.directImported predecessor row)
      let facts ← check (c.directShipping predecessor facts)
      .ok (facts,st)
    | some (.native priorRetained rest) =>
      let prior ← nativeView c priorRetained rest
      check (c.directPrior row prior.snapshot)
      requireFact (retained.sourceDigest == c.digest (some prior.snapshot))
        "direct shipping predecessor digest differs"
      let (facts,st) ← recurse prior seen (some ⟨orderId,c.savedMethod row⟩) st
      let facts ← check (c.directShipping predecessor facts)
      .ok (facts,st)
    | some _ => .error (.threw "direct shipping predecessor must be native V1")
  | _ => .error (.threw "direct shipping durable source ambiguous or absent")

/-- Origin whose own shipping a snapshot revalidates. -/
def revalidatedOrigin (origin : Snapshot β) (retained : RetainedShipping) : Option (Snapshot β) :=
  match origin with
  | .imported (some basis) _ =>
    if retained.mode=.revalidatePromotions∧retained.sourceDigest=basis then some origin
    else none
  | _ => none

/-- Shipping facts of a version 2 snapshot that retains shipping: those of the
predecessor its durable row names, or of its origin. -/
def durableSourceFacts (context : Context β ρ) (evidence : Evidence ρ)
    (resolve : Resolver β γ) (recurse : ShippingReader β γ φ) (predecessor : View β γ)
    (editId predecessorDigest : String) (origin : Snapshot β) (retained : RetainedShipping)
    (hash : String) (seen : List String) (st : Reading β γ) : Except Stop (φ×Reading β γ) := do
  requireFact (decide (seen.length≤ancestry context.pricingSources))
    "shipping durable ancestry exhausted"
  let (_,st) ← resolve hash st
  let row ← present (context.pricingSources.find? fun row =>
    row.id == editId&&some row.orderId == evidence.orderId) "shipping durable predecessor differs"
  requireFact (row.before.isSome&&c.digest (beforePricing row) == predecessorDigest)
    "shipping durable predecessor differs"
  check (c.predecessorLines row)
  let (prior,st) ← resolve predecessorDigest st
  let (facts,st) ← recurse prior seen none st
  match revalidatedOrigin origin retained with
  | none =>
    let facts ← check (c.currentShipping predecessor facts)
    .ok (facts,st)
  | some source =>
    let sourceView ← importedOriginView c source
    let (facts,st) ← recurse sourceView [] none st
    let facts ← check (c.currentShipping predecessor facts)
    .ok (facts,st)

/-- Shipping facts of a view, following the durable ancestry of its retained
shipping. -/
def shippingSourceFacts (c : Checks β γ φ ρ κ) (context : Context β ρ) (evidence : Evidence ρ)
    (resolve : Resolver β γ) : ℕ → ShippingReader β γ φ
  | 0 => fun _ _ _ _ => .error .outOfFuel
  | fuel+1 => fun predecessor seen orderContext st => do
    let hash := c.digest (some predecessor.snapshot)
    requireFact (!seen.contains hash) "shipping predecessor cycle"
    match predecessor.snapshot with
    | .imported _ _ =>
      let facts ← check (c.importedShipping predecessor)
      .ok (facts,st)
    | .native none _ => .ok (c.scalarShipping predecessor orderContext,st)
    | .edited _ _ _ none _ => .ok (c.scalarShipping predecessor orderContext,st)
    | .native (some retained) _ =>
      directSourceFacts c context evidence (shippingSourceFacts c context evidence resolve fuel)
        predecessor retained hash (hash::seen) orderContext st
    | .edited editId predecessorDigest origin (some retained) _ =>
      durableSourceFacts c context evidence resolve
        (shippingSourceFacts c context evidence resolve fuel) predecessor editId predecessorDigest
        origin retained hash (hash::seen) st

/-- Retained shipping of a version 2 snapshot. -/
def retainedOf : Snapshot β → Option RetainedShipping
  | .edited _ _ _ retained _ => retained
  | _ => none

section
variable (c : Checks β γ φ ρ κ)

/-- Rebuild a version 2 snapshot on its predecessor. The shipping facts of the
predecessor are read when the snapshot retains shipping. -/
def buildPricing (shipping : ShippingReader β γ φ) (source : Snapshot β)
    (predecessor : View β γ) (st : Reading β γ) : Except Stop (Unit×Reading β γ) := do
  check (c.rebuildStart source predecessor)
  match retainedOf source with
  | none =>
    check (c.rebuild source predecessor none)
    .ok ((),st)
  | some _ =>
    let (facts,st) ← shipping predecessor [] none st
    check (c.rebuild source predecessor (some facts))
    .ok ((),st)

/-- The durable row of a version 2 snapshot, bound to it. -/
def activatedRow (graph : Graph β) (evidence : Evidence ρ)
    (source : Snapshot β) (editId predecessorDigest : String) :
    Except Stop (CreditPricingSource β) := do
  let row ← present (graph.rows.lookup editId) "activated pricing row custody required"
  requireFact (some row.orderId == evidence.orderId&&row.before.isSome&&row.after.isSome)
    "activated pricing row custody required"
  requireFact (c.digest (beforePricing row) == predecessorDigest &&
    (activatedPricing row).any fun activated => c.serial activated == c.serial source)
    "activated pricing row binding"
  check (c.receipt source row)
  .ok row

/-- View of a version 2 snapshot: its predecessor is resolved, the units its
activation consumed are found again and the snapshot is rebuilt. -/
def editedView (graph : Graph β) (evidence : Evidence ρ)
    (resolve : Resolver β γ) (shipping : ShippingReader β γ φ) (source : Snapshot β)
    (editId predecessorDigest : String) (st : Reading β γ) :
    Except Stop (View β γ×Reading β γ) := do
  let row ← activatedRow c graph evidence source editId predecessorDigest
  let (predecessor,st) ← resolve predecessorDigest st
  check (c.proposal source row predecessor)
  let refunds ← evidence.refunds.filterM fun refund => check (c.atActivation source predecessor refund)
  let ((consumed,predecessor),st) ←
    consumedIds c resolve predecessorDigest predecessor refunds false st
  check (c.frozen source consumed)
  let (_,st) ← buildPricing c shipping source predecessor st
  let facts ← check (c.v2View source)
  .ok (⟨source,facts⟩,st)

/-- View of a source that is being visited. -/
def sourceView (context : Context β ρ) (graph : Graph β)
    (resolve : Resolver β γ) (shipping : Evidence ρ → ShippingReader β γ φ) (source : Snapshot β)
    (st : Reading β γ) : Except Stop (View β γ×Reading β γ) :=
  match source with
  | .imported _ _ => do
    let view ← importedOriginView c source
    .ok (view,st)
  | .native retained rest => do
    let view ← nativeView c retained rest
    .ok (view,st)
  | .edited editId predecessorDigest _ _ _ => do
    let evidence ← present context.creditEvidence "version/profile/credit evidence"
    check (c.profile source)
    requireFact (!st.visitingEdits.contains editId) "version/profile/credit evidence"
    let (view,st) ← editedView c graph evidence resolve (shipping evidence) source editId
      predecessorDigest {st with visitingEdits := editId::st.visitingEdits}
    .ok (view,{st with visitingEdits := st.visitingEdits.erase editId})

end

/-- Resolve a digest: from the cache, or by reading its source once. -/
def resolve (c : Checks β γ φ ρ κ) (context : Context β ρ) (graph : Graph β) : ℕ → Resolver β γ
  | 0 => fun _ _ => .error .outOfFuel
  | fuel+1 => fun hash st =>
    match st.cache.lookup hash with
    | some view => .ok (view,st)
    | none => do
      let source ← present (graph.sources.lookup hash)
        "pricing source absent from durable edit history"
      requireFact (!st.visiting.contains hash) "cyclic pricing source"
      let (view,st) ← sourceView c context graph (resolve c context graph fuel)
        (fun evidence => shippingSourceFacts c context evidence (resolve c context graph fuel) fuel)
        source {st with visiting := hash::st.visiting}
      .ok (view,{st with
        visiting := st.visiting.erase hash
        cache := setEntry st.cache hash view})

/-- Read the current pricing of an order: its view, nothing without a
snapshot, or an error. -/
def readCurrentPricingGraph (context : Context β ρ) (fuel : ℕ)
    (raw : Option (Snapshot β)) : Except Stop (Option (View β γ)) :=
  match raw with
  | none => .ok none
  | some raw => do
    let graph ← gather c context raw
    let hash := c.digest (some raw)
    let (view,st) ← resolve c context graph fuel hash ⟨[],[],[]⟩
    check (c.orderLines view)
    match context.creditEvidence with
    | none => .ok (some view)
    | some evidence =>
      let ((consumed,view),_) ←
        consumedIds c (resolve c context graph fuel) hash view evidence.refunds true st
      .ok (some {view with facts := c.withConsumed view consumed})

end SellRight.PricingGraph
