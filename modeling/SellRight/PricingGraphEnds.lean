import SellRight.PricingGraph

/-!
# Reading a pricing graph ends

The digests being resolved are different digests of the gathered sources, and
the shipping reader goes on only while it has seen no more digests than there
are durable edits. A completed call leaves the two visiting sets as it found
them, so each nested call runs with one more digest in one of them, and a
depth of recursion bounded by the two counts is never exceeded.
-/

namespace SellRight.PricingGraphEnds

open PricingGraph List

variable {α τ β γ φ ρ κ : Type} {visiting edits : List String}

/-- A computation that is not cut off. -/
def Ends (result : Except Stop α) : Prop := result≠.error .outOfFuel

/-- A computation on the shared variables that is not cut off and, when it
completes, leaves the visiting sets as given. -/
def Settles (visiting edits : List String) (result : Except Stop (α×Reading β γ)) : Prop :=
  Ends result∧∀ value st, result=.ok (value,st)→st.visiting=visiting∧st.visitingEdits=edits

/-- A resolver that settles from every state with the given visiting sets. -/
def Resolves (visiting edits : List String) (resolver : Resolver β γ) : Prop :=
  ∀ hash st, st.visiting=visiting→st.visitingEdits=edits → Settles visiting edits (resolver hash st)

/-- A check is never cut off. -/
theorem check_ends (result : Except String α) : Ends (check result) := by
  cases result with
  | ok | error => simp [Ends,check]

/-- A required fact is never cut off. -/
theorem requireFact_ends (ok : Bool) (message : String) : Ends (requireFact ok message) := by
  cases ok with
  | true | false => simp [Ends,requireFact]

/-- A required value is never cut off. -/
theorem present_ends (value : Option α) (message : String) : Ends (present value message) := by
  cases value with
  | some | none => simp [Ends,present]

variable {first : Except Stop α} {next : α → Except Stop τ} {step : τ → α → Except Stop τ}
  {predecessor : View β γ} {hash : String} {seen : List String} {fuel : ℕ} {source : Snapshot β}

/-- A sequence is not cut off when its parts are not. -/
theorem Ends.bind (hfst : Ends first)
    (hnx : ∀ value, first=.ok value → Ends (next value)) : Ends (first >>= next) := by
  cases hres : first with
  | ok value => exact hnx value hres
  | error =>
    rw [hres] at hfst
    intro heq
    exact hfst (congrArg Except.error (Except.error.inj heq))

/-- A loop is not cut off when no turn is. -/
theorem foldlM_ends (hstep : ∀ state item, Ends (step state item))
    (items : List α) (start : τ) : Ends (items.foldlM step start) := by
  induction items generalizing start with
  | nil => simp [Ends,pure,Except.pure]
  | cons item _ ih =>
    exact (hstep start item).bind fun state _ => ih state

/-- A value that leaves the variables alone settles. -/
theorem Settles.value {value : α} {st : Reading β γ} (hvis : st.visiting=visiting)
    (hedi : st.visitingEdits=edits) : Settles visiting edits (.ok (value,st)) := by
  refine ⟨by simp [Ends],fun other last heq => ?_⟩
  cases heq
  exact ⟨hvis,hedi⟩

theorem Settles.threw (message : String) :
    Settles visiting edits (.error (.threw message) : Except Stop (α×Reading β γ)) :=
  ⟨by simp [Ends],nofun⟩

/-- A part that does not touch the variables before one that settles. -/
theorem Settles.after {first : Except Stop τ} {next : τ → Except Stop (α×Reading β γ)}
    (hfst : Ends first) (hnx : ∀ value, first=.ok value → Settles visiting edits (next value)) :
    Settles visiting edits (first >>= next) := by
  refine ⟨hfst.bind fun value hval => (hnx value hval).1,fun value st heq => ?_⟩
  cases hres : first with
  | ok found =>
    rw [hres] at heq
    exact (hnx found hres).2 value st heq
  | error =>
    rw [hres] at heq
    cases heq

/-- Two parts that settle one after the other. -/
theorem Settles.bind {first : Except Stop (τ×Reading β γ)}
    {next : τ×Reading β γ → Except Stop (α×Reading β γ)} (hfst : Settles visiting edits first)
    (hnx : ∀ value st, st.visiting=visiting→st.visitingEdits=edits →
      Settles visiting edits (next (value,st))) : Settles visiting edits (first >>= next) := by
  refine .after hfst.1 fun result hres => ?_
  obtain ⟨value,st⟩ := result
  obtain ⟨hvis,hedi⟩ := hfst.2 value st hres
  exact hnx value st hvis hedi

/-- A loop whose turns settle settles. -/
theorem foldlM_settles {step : τ×Reading β γ → α → Except Stop (τ×Reading β γ)}
    (hstep : ∀ value st item, st.visiting=visiting→st.visitingEdits=edits →
      Settles visiting edits (step (value,st) item))
    (items : List α) {start : τ} {st : Reading β γ} (hvis : st.visiting=visiting)
    (hedi : st.visitingEdits=edits) : Settles visiting edits (items.foldlM step (start,st)) := by
  induction items generalizing start st with
  | nil => exact .value hvis hedi
  | cons item _ ih =>
    exact (hstep start st item hvis hedi).bind fun value next hv he => ih hv he

theorem filterM_ends {test : α → Except Stop Bool} (htes : ∀ item, Ends (test item))
    (items : List α) : Ends (items.filterM test) := by
  have haux : ∀ kept, Ends (List.filterAuxM test items kept) := by
    induction items with
    | nil => intro kept; simp [Ends,List.filterAuxM,pure,Except.pure]
    | cons item _ ih =>
      intro kept
      exact (htes item).bind fun keep _ => ih _
  exact (haux []).bind fun kept _ => by simp [Ends,pure,Except.pure]

variable {c : Checks β γ φ ρ κ} {context : Context β ρ} {graph : Graph β} {evidence : Evidence ρ}
  {resolver : Resolver β γ} {recurse : ShippingReader β γ φ} {st : Reading β γ}

/-- A strict reading is not cut off. -/
theorem nativeView_ends (retained : Option RetainedShipping) (rest : β) :
    Ends (nativeView c retained rest) :=
  (check_ends _).bind fun strict _ => (check_ends _).bind fun facts _ => by simp [Ends]

theorem importedOriginView_ends (origin : Snapshot β) : Ends (importedOriginView c origin) :=
  (check_ends _).bind fun facts _ => by simp [Ends]

theorem importedOriginView_snapshot {origin : Snapshot β} {view : View β γ}
    (hvie : importedOriginView c origin=.ok view) : view.snapshot=origin := by
  unfold importedOriginView at hvie
  cases hfac : check (c.importedView origin) with
  | error =>
    rw [hfac] at hvie
    cases hvie
  | ok =>
    rw [hfac] at hvie
    cases hvie
    rfl

theorem consumedIds_settles (hres : Resolves visiting edits resolver) (hash : String)
    (view : View β γ) (refunds : List ρ) (join : Bool) (hvis : st.visiting=visiting)
    (hedi : st.visitingEdits=edits) :
    Settles visiting edits (consumedIds c resolver hash view refunds join st) := by
  have hone : ∀ progress st refund, st.visiting=visiting→st.visitingEdits=edits →
      Settles visiting edits (consumeOne c resolver (progress,st) refund) := by
    intro progress st refund hv he
    refine .after (check_ends _) fun frozen _ => ?_
    cases frozen with
    | none => exact .after (check_ends _) fun result _ => .value hv he
    | some digest =>
      refine .bind (hres digest st hv he) fun source later hlat hlate => ?_
      exact .after (check_ends _) fun result _ => .value hlat hlate
  refine .after (check_ends _) fun start _ => ?_
  refine .bind (foldlM_settles hone refunds hvis hedi) fun progress last hv he => ?_
  cases join with
  | true => exact .after (check_ends _) fun _ _ => .value hv he
  | false => exact .value hv he

/-- A shipping reader that settles from every state with the visiting sets. -/
def ReadsFrom (visiting edits : List String) (recurse : ShippingReader β γ φ) (view : View β γ)
    (seen : List String) : Prop :=
  ∀ orderContext st, st.visiting=visiting→st.visitingEdits=edits →
    Settles visiting edits (recurse view seen orderContext st)

variable {retained : RetainedShipping}

/-- Shipping facts of a direct edit settle when those of any predecessor do,
read after one more digest while some edit is left. -/
theorem directSourceFacts_settles
    {orderContext : Option ShippingOrderContext}
    (hrec : seen.length≤ancestry context.pricingSources →
      ∀ view, ReadsFrom visiting edits recurse view seen)
    (hvis : st.visiting=visiting) (hedi : st.visitingEdits=edits) :
    Settles visiting edits (directSourceFacts c context evidence recurse predecessor retained hash
      seen orderContext st) := by
  refine .after (present_ends _ _) fun orderId _ => ?_
  refine .after (requireFact_ends _ _) fun _ hfac => ?_
  have hlf : seen.length≤ancestry context.pricingSources := by
    by_contra hnot
    rw [decide_eq_false hnot] at hfac
    cases hfac
  cases directCandidates c context.pricingSources orderId hash with
  | nil => exact .threw _
  | cons row others =>
    cases others with
    | cons => exact .threw _
    | nil =>
      refine .after (requireFact_ends _ _) fun _ _ => ?_
      refine .after (check_ends _) fun _ _ => ?_
      cases beforePricing row with
      | none =>
        refine .after (check_ends _) fun facts _ => ?_
        exact .after (check_ends _) fun facts _ => .value hvis hedi
      | some prior =>
        cases prior with
        | imported | edited => exact .threw _
        | native =>
          refine .after (nativeView_ends _ _) fun prior _ => ?_
          refine .after (check_ends _) fun _ _ => ?_
          refine .after (requireFact_ends _ _) fun _ _ => ?_
          refine .bind (hrec hlf prior _ st hvis hedi) fun facts later hv he => ?_
          exact .after (check_ends _) fun facts _ => .value hv he

variable {editId predecessorDigest : String}

/-- Shipping facts of a version 2 snapshot settle when the resolver does and
those of any predecessor do; an origin is read without going further. -/
theorem durableSourceFacts_settles (hres : Resolves visiting edits resolver) {origin : Snapshot β}
    (hrec : seen.length≤ancestry context.pricingSources →
      ∀ view, ReadsFrom visiting edits recurse view seen)
    (hori : seen.length≤ancestry context.pricingSources→∀ view basis rest,
      view.snapshot=.imported basis rest → ReadsFrom visiting edits recurse view [])
    (hvis : st.visiting=visiting) (hedi : st.visitingEdits=edits) :
    Settles visiting edits (durableSourceFacts c context evidence resolver recurse predecessor
      editId predecessorDigest origin retained hash seen st) := by
  refine .after (requireFact_ends _ _) fun _ hfac => ?_
  have hlf : seen.length≤ancestry context.pricingSources := by
    by_contra hnot
    rw [decide_eq_false hnot] at hfac
    cases hfac
  refine .bind (hres hash st hvis hedi) fun _ st hv he => ?_
  refine .after (present_ends _ _) fun row _ => ?_
  refine .after (requireFact_ends _ _) fun _ _ => ?_
  refine .after (check_ends _) fun _ _ => ?_
  refine .bind (hres predecessorDigest st hv he) fun prior st hv he => ?_
  refine .bind (hrec hlf prior none st hv he) fun facts st hv he => ?_
  cases hsou : revalidatedOrigin origin retained with
  | none => exact .after (check_ends _) fun facts _ => .value hv he
  | some =>
    refine .after (importedOriginView_ends _) fun view hvie => ?_
    have himp : ∃ basis rest, view.snapshot=.imported basis rest := by
      rw [importedOriginView_snapshot hvie]
      cases origin with
      | native | edited => cases hsou
      | imported basis rest =>
        cases basis with
        | none => cases hsou
        | some digest =>
          simp only [revalidatedOrigin] at hsou
          split at hsou
          · cases hsou
            exact ⟨some digest,rest,rfl⟩
          · cases hsou
    obtain ⟨basis,rest,hsna⟩ := himp
    refine .bind (hori hlf view basis rest hsna none st hv he) fun facts st hv he => ?_
    exact .after (check_ends _) fun facts _ => .value hv he

theorem shippingSourceFacts_imported (hfue : 0<fuel) {view : View β γ}
    {basis : Option String} {rest : β} (hsna : view.snapshot=.imported basis rest)
    (seen : List String) :
    ReadsFrom visiting edits (shippingSourceFacts c context evidence resolver fuel) view seen := by
  intro orderContext st hvis hedi
  obtain ⟨fuel,rfl⟩ := Nat.exists_eq_succ_of_ne_zero hfue.ne'
  rw [shippingSourceFacts]
  dsimp only
  rw [hsna]
  refine .after (requireFact_ends _ _) fun _ _ => ?_
  exact .after (check_ends _) fun facts _ => .value hvis hedi

/-- The shipping reader settles: it goes on only while it has seen no more
digests than there are durable edits. -/
theorem shippingSourceFacts_settles (hres : Resolves visiting edits resolver)
    (hsee : seen.length≤ancestry context.pricingSources)
    (hfue : ancestry context.pricingSources+1≤fuel+seen.length) (view : View β γ) :
    ReadsFrom visiting edits (shippingSourceFacts c context evidence resolver fuel) view seen := by
  induction fuel generalizing seen view with
  | zero => omega
  | succ fuel ih =>
    intro orderContext st hvis hedi
    have hnx : ∀ hash : String, (hash::seen).length≤ancestry context.pricingSources →
        ∀ view, ReadsFrom visiting edits (shippingSourceFacts c context evidence resolver fuel)
          view (hash::seen) := by
      intro hash hlf view
      have heno : ancestry context.pricingSources+1≤fuel+(hash::seen).length := by
        rw [length_cons]
        omega
      exact ih hlf heno view
    have hori : ∀ hash : String, (hash::seen).length≤ancestry context.pricingSources →
        ∀ view basis rest, view.snapshot=.imported basis rest →
          ReadsFrom visiting edits (shippingSourceFacts c context evidence resolver fuel) view [] := by
      intro hash hlf view basis rest hsna
      rw [length_cons] at hlf
      have hpos : 0<fuel := by omega
      exact shippingSourceFacts_imported hpos hsna []
    refine .after (requireFact_ends _ _) fun _ _ => ?_
    cases view.snapshot with
    | imported => exact .after (check_ends _) fun facts _ => .value hvis hedi
    | native retained =>
      cases retained with
      | none => exact .value hvis hedi
      | some => exact directSourceFacts_settles (hnx _) hvis hedi
    | edited _ _ _ retained =>
      cases retained with
      | none => exact .value hvis hedi
      | some => exact durableSourceFacts_settles hres (hnx _) (hori _) hvis hedi

variable {shipping : ShippingReader β γ φ}

theorem buildPricing_settles
    (hshi : ReadsFrom visiting edits shipping predecessor [])
    (hvis : st.visiting=visiting) (hedi : st.visitingEdits=edits) :
    Settles visiting edits (buildPricing c shipping source predecessor st) := by
  refine .after (check_ends _) fun _ _ => ?_
  cases retainedOf source with
  | none => exact .after (check_ends _) fun _ _ => .value hvis hedi
  | some =>
    refine .bind (hshi none st hvis hedi) fun facts st hv he => ?_
    exact .after (check_ends _) fun _ _ => .value hv he

/-- Finding the durable row of a snapshot is not cut off. -/
theorem activatedRow_ends (source : Snapshot β) (editId predecessorDigest : String) :
    Ends (activatedRow c graph evidence source editId predecessorDigest) := by
  refine (present_ends _ _).bind fun row _ => ?_
  refine (requireFact_ends _ _).bind fun _ _ => ?_
  refine (requireFact_ends _ _).bind fun _ _ => ?_
  exact (check_ends _).bind fun _ _ => by simp [Ends]

theorem editedView_settles (hres : Resolves visiting edits resolver) (hshi : ∀ view, ReadsFrom visiting edits shipping view [])
    (hvis : st.visiting=visiting) (hedi : st.visitingEdits=edits) :
    Settles visiting edits (editedView c graph evidence resolver shipping source editId
      predecessorDigest st) := by
  refine .after (activatedRow_ends _ _ _) fun row _ => ?_
  refine .bind (hres predecessorDigest st hvis hedi) fun predecessor st hv he => ?_
  refine .after (check_ends _) fun _ _ => ?_
  refine .after (filterM_ends (fun _ => check_ends _) _) fun refunds _ => ?_
  refine .bind (consumedIds_settles hres _ _ _ _ hv he) fun consumed st hv he => ?_
  refine .after (check_ends _) fun _ _ => ?_
  refine .bind (buildPricing_settles (hshi _) hv he) fun _ st hv he => ?_
  exact .after (check_ends _) fun facts _ => .value hv he

/-- The view of a source settles when the resolver and the shipping reader do
with one more edit being visited. -/
theorem sourceView_settles (hres : ∀ edits, Resolves visiting edits resolver)
    {shipping : Evidence ρ → ShippingReader β γ φ}
    (hshi : ∀ edits evidence view, ReadsFrom visiting edits (shipping evidence) view [])
    (hvis : st.visiting=visiting) (hedi : st.visitingEdits=edits) :
    Settles visiting edits (sourceView c context graph resolver shipping source st) := by
  cases source with
  | imported =>
    exact .after (importedOriginView_ends _) fun view _ => .value hvis hedi
  | native => exact .after (nativeView_ends _ _) fun view _ => .value hvis hedi
  | edited editId predecessorDigest origin retained rest =>
    refine .after (present_ends _ _) fun evidence _ => ?_
    refine .after (check_ends _) fun _ _ => ?_
    refine .after (requireFact_ends _ _) fun _ _ => ?_
    have hvie : Settles visiting (editId::edits) (editedView c graph evidence resolver
        (shipping evidence) (.edited editId predecessorDigest origin retained rest) editId
        predecessorDigest {st with visitingEdits := editId::st.visitingEdits}) :=
      editedView_settles (hres _) (hshi _ evidence) hvis (congrArg (List.cons editId) hedi)
    refine .after hvie.1 fun result hresu => ?_
    obtain ⟨view,last⟩ := result
    obtain ⟨hlt,hlas⟩ := hvie.2 view last hresu
    refine .value hlt ?_
    rw [hlas,erase_cons_head]

/-- The digests a reading can resolve. -/
def digestsOf (graph : Graph β) : List String := graph.sources.map Prod.fst

/-- A digest found among the sources is one of theirs. -/
theorem mem_digestsOf
    (hfd : graph.sources.lookup hash=some source) : hash∈digestsOf graph := by
  unfold digestsOf
  generalize graph.sources=sources at hfd
  induction sources with
  | nil => cases hfd
  | cons entry _ ih =>
    by_cases hkey : hash=entry.1
    · rw [hkey]
      exact mem_cons_self
    · have hkeyF : (hash == entry.1)=false := beq_false_of_ne hkey
      rw [lookup_cons,hkeyF] at hfd
      exact mem_cons_of_mem _ (ih hfd)

/-- One call of the resolver settles when the calls nested in it do, with its
digest being visited. -/
theorem resolve_turn (hanc : ancestry context.pricingSources+1≤fuel)
    (hnes : ∀ hash∈digestsOf graph, hash∉visiting →
      ∀ edits, Resolves (hash::visiting) edits (resolve c context graph fuel)) :
    Resolves visiting edits (resolve c context graph (fuel+1)) := by
  intro hash st hvis hedi
  rw [resolve]
  dsimp only
  cases st.cache.lookup hash with
  | some => exact .value hvis hedi
  | none =>
    refine .after (present_ends _ _) fun source hsou => ?_
    have hmem : hash∈digestsOf graph := by
      cases hfd : graph.sources.lookup hash with
      | none =>
        rw [hfd] at hsou
        cases hsou
      | some => exact mem_digestsOf hfd
    refine .after (requireFact_ends _ _) fun _ hfac => ?_
    have hfre : hash∉visiting := by
      intro hin
      have hcon : st.visiting.contains hash=true := by
        rw [hvis]
        exact contains_iff_mem.mpr hin
      rw [hcon] at hfac
      cases hfac
    have hres := hnes hash hmem hfre
    have hvie : Settles (hash::visiting) edits (sourceView c context graph
        (resolve c context graph fuel) (fun evidence =>
          shippingSourceFacts c context evidence (resolve c context graph fuel) fuel)
        source {st with visiting := hash::st.visiting}) :=
      sourceView_settles hres
        (fun edits _ view => shippingSourceFacts_settles (hres edits) (Nat.zero_le _) hanc view)
        (congrArg (List.cons hash) hvis) hedi
    refine .after hvie.1 fun result hresu => ?_
    obtain ⟨view,last⟩ := result
    obtain ⟨hlt,hlas⟩ := hvie.2 view last hresu
    refine .value ?_ hlas
    rw [hlt,erase_cons_head]

/-- The resolver settles: each nested call visits one more of the digests of
the sources. -/
theorem resolve_settles {spare : ℕ} {visiting : List String} (hdis : visiting.Nodup)
    (hkn : visiting ⊆ digestsOf graph) (hspa : (digestsOf graph).length≤visiting.length+spare)
    (hfue : spare+ancestry context.pricingSources+2≤fuel) (edits : List String) :
    Resolves visiting edits (resolve c context graph fuel) := by
  induction spare generalizing fuel visiting edits with
  | zero =>
    obtain ⟨fuel,rfl⟩ := Nat.exists_eq_succ_of_ne_zero (show fuel≠0 by omega)
    refine resolve_turn (by omega) fun hash hmem hfre => ?_
    have hmor : (hash::visiting).length≤(digestsOf graph).length :=
      ((nodup_cons.mpr ⟨hfre,hdis⟩).subperm (cons_subset.mpr ⟨hmem,hkn⟩)).length_le
    rw [length_cons] at hmor
    omega
  | succ _ ih =>
    obtain ⟨fuel,rfl⟩ := Nat.exists_eq_succ_of_ne_zero (show fuel≠0 by omega)
    refine resolve_turn (by omega) fun hash hmem hfre edits => ?_
    refine ih (nodup_cons.mpr ⟨hfre,hdis⟩) (cons_subset.mpr ⟨hmem,hkn⟩) ?_ (by omega) edits
    rw [length_cons]
    omega

/-- Setting an entry adds at most one. -/
theorem setEntry_length (entries : List (String×α)) (key : String) (value : α) :
    (setEntry entries key value).length≤entries.length+1 := by
  have hle := length_filter_le (fun entry : String×α => entry.1 != key) entries
  rw [setEntry,length_cons]
  omega

/-- Adding a snapshot is not cut off and adds at most one source. -/
theorem addSource_spec (sources : List (String×Snapshot β)) (snapshot : Option (Snapshot β)) :
    Ends (addSource c sources snapshot) ∧
      ∀ next, addSource c sources snapshot=.ok next→next.length ≤ sources.length+1 := by
  cases snapshot with
  | none =>
    refine ⟨by simp [Ends,addSource],fun next hnx => ?_⟩
    cases hnx
    omega
  | some s =>
    unfold addSource
    dsimp only
    cases sources.lookup (c.digest (some s)) with
    | none =>
      refine ⟨by simp [Ends],fun next hnx => ?_⟩
      cases hnx
      exact setEntry_length _ _ _
    | some old =>
      dsimp only
      split
      · refine ⟨by simp [Ends],fun next hnx => ?_⟩
        cases hnx
        exact setEntry_length _ _ _
      · exact ⟨by simp [Ends],nofun⟩

/-- A completed sequence is two completed parts. -/
theorem bind_ok {result : τ}
    (hall : (first >>= next)=.ok result) : ∃ value, first=.ok value∧next value=.ok result := by
  cases hfst : first with
  | ok value =>
    rw [hfst] at hall
    exact ⟨value,rfl,hall⟩
  | error =>
    rw [hfst] at hall
    cases hall

/-- A loop whose turns add a bounded number of entries. -/
theorem foldlM_grows (size : τ → ℕ) {more : ℕ}
    (hstep : ∀ state item next, step state item=.ok next→size next ≤ size state+more)
    {items : List α} {start last : τ} (hall : items.foldlM step start=.ok last) :
    size last ≤ size start+items.length*more := by
  induction items generalizing start with
  | nil =>
    cases hall
    simp
  | cons item _ ih =>
    obtain ⟨middle,hfst,hrt⟩ := bind_ok hall
    have hone := hstep start item middle hfst
    have hoth := ih hrt
    rw [length_cons,Nat.succ_mul]
    omega

/-- Adding a durable row is not cut off and adds at most two sources. -/
theorem addRow_spec (gathered : List (String×CreditPricingSource β)×List (String×Snapshot β))
    (row : CreditPricingSource β) : Ends (addRow c gathered row) ∧
      ∀ next, addRow c gathered row=.ok next→next.2.length≤gathered.2.length+2 := by
  constructor
  · refine (requireFact_ends _ _).bind fun _ _ => ?_
    refine (addSource_spec _ _).1.bind fun _ _ => ?_
    exact (addSource_spec _ _).1.bind fun _ _ => by simp [Ends]
  · intro next hnx
    obtain ⟨-,-,hnx⟩ := bind_ok hnx
    obtain ⟨middle,hfst,hnx⟩ := bind_ok hnx
    obtain ⟨sources,hsec,hnx⟩ := bind_ok hnx
    cases hnx
    have hmid := (addSource_spec _ _).2 middle hfst
    have hlt := (addSource_spec _ _).2 sources hsec
    dsimp only
    omega

/-- Gathering is not cut off, and every durable row brings at most four
digests. -/
theorem gather_spec (c : Checks β γ φ ρ κ) (context : Context β ρ) (raw : Snapshot β) :
    Ends (gather c context raw)∧∀ graph, gather c context raw=.ok graph →
      (digestsOf graph).length≤4*context.pricingSources.length+2 := by
  constructor
  · refine (addSource_spec _ _).1.bind fun sources _ => ?_
    refine (foldlM_ends (fun gathered row => (addRow_spec gathered row).1) _ _).bind fun gathered _ => ?_
    refine (foldlM_ends (fun sources entry => (addSource_spec sources _).1) _ _).bind fun all _ => ?_
    simp [Ends]
  · intro graph hgra
    obtain ⟨first,hfst,hgra⟩ := bind_ok hgra
    obtain ⟨gathered,hrs,hgra⟩ := bind_ok hgra
    obtain ⟨all,hori,hgra⟩ := bind_ok hgra
    cases hgra
    have hone := (addSource_spec _ _).2 first hfst
    have hman := foldlM_grows (fun state => state.2.length)
      (fun gathered row => (addRow_spec gathered row).2) hrs
    have hdou := foldlM_grows List.length (fun sources entry => (addSource_spec sources _).2) hori
    simp only [length_nil] at hone
    dsimp only at hman
    rw [digestsOf,length_map]
    dsimp only
    omega

/-- The first computation was cut off, or the second one has its result. -/
def Below (shorter longer : Except Stop α) : Prop := shorter=.error .outOfFuel∨shorter=longer

/-- A computation has its own result. -/
theorem Below.refl (result : Except Stop α) : Below result result := .inr rfl

variable {more : α → Except Stop τ}

/-- Sequences of computations of which the longer ones have the results. -/
theorem Below.bind {longer : Except Stop α}
    (hfst : Below first longer) (hnx : ∀ value, Below (next value) (more value)) :
    Below (first >>= next) (longer >>= more) := by
  rcases hfst with hcut|heq
  · rw [hcut]
    exact .inl rfl
  rw [heq]
  cases longer with
  | error => exact .inr rfl
  | ok value => exact hnx value

/-- A longer computation after a part they share. -/
theorem Below.after
    (hnx : ∀ value, Below (next value) (more value)) : Below (first >>= next) (first >>= more) :=
  (Below.refl first).bind hnx

/-- Loops of which the longer turns have the results. -/
theorem foldlM_below {more : τ → α → Except Stop τ}
    (hstep : ∀ state item, Below (step state item) (more state item)) (items : List α) (start : τ) :
    Below (items.foldlM step start) (items.foldlM more start) := by
  induction items generalizing start with
  | nil => exact .refl _
  | cons item _ ih =>
    exact (hstep start item).bind ih

/-- Every answer of the second resolver is one the first gives or is cut off. -/
def BelowAll (shorter longer : Resolver β γ) : Prop :=
  ∀ hash st, Below (shorter hash st) (longer hash st)

/-- Every answer of the second reader is one the first gives or is cut off. -/
def BelowReader (shorter longer : ShippingReader β γ φ) : Prop := ∀ view seen orderContext st,
    Below (shorter view seen orderContext st) (longer view seen orderContext st)

section Longer

variable {shorter longer : Resolver β γ} {reader deeper : ShippingReader β γ φ}

theorem consumedIds_below (hres : BelowAll shorter longer) (hash : String) (view : View β γ)
    (refunds : List ρ) (join : Bool) (st : Reading β γ) :
    Below (consumedIds c shorter hash view refunds join st)
      (consumedIds c longer hash view refunds join st) := by
  have hone : ∀ progress refund, Below (consumeOne c shorter progress refund)
      (consumeOne c longer progress refund) := by
    intro progress refund
    refine .after fun frozen => ?_
    cases frozen with
    | none => exact .refl _
    | some digest => exact (hres digest _).bind fun _ => .refl _
  exact .after fun start => (foldlM_below hone refunds _).bind fun _ => .refl _

theorem directSourceFacts_below (hrea : BelowReader reader deeper) (predecessor : View β γ)
    (retained : RetainedShipping) (hash : String) (seen : List String)
    (orderContext : Option ShippingOrderContext) (st : Reading β γ) :
    Below (directSourceFacts c context evidence reader predecessor retained hash seen orderContext st)
      (directSourceFacts c context evidence deeper predecessor retained hash seen orderContext st) := by
  refine .after fun orderId => .after fun _ => ?_
  cases directCandidates c context.pricingSources orderId hash with
  | nil => exact .refl _
  | cons row others =>
    cases others with
    | cons => exact .refl _
    | nil =>
      refine .after fun _ => .after fun _ => ?_
      cases beforePricing row with
      | none => exact .refl _
      | some prior =>
        cases prior with
        | imported | edited => exact .refl _
        | native =>
          refine .after fun prior => .after fun _ => .after fun _ => ?_
          exact (hrea prior seen _ st).bind fun _ => .refl _

section
variable (hres : BelowAll shorter longer)
include hres

theorem durableSourceFacts_below (hrea : BelowReader reader deeper) (predecessor : View β γ)
    (editId predecessorDigest : String) (origin : Snapshot β) (retained : RetainedShipping)
    (hash : String) (seen : List String) (st : Reading β γ) :
    Below (durableSourceFacts c context evidence shorter reader predecessor editId
        predecessorDigest origin retained hash seen st)
      (durableSourceFacts c context evidence longer deeper predecessor editId
        predecessorDigest origin retained hash seen st) := by
  refine .after fun _ => (hres hash st).bind fun own => ?_
  refine .after fun row => .after fun _ => .after fun _ => ?_
  refine (hres predecessorDigest own.2).bind fun prior => ?_
  refine (hrea prior.1 seen none prior.2).bind fun facts => ?_
  cases revalidatedOrigin origin retained with
  | none => exact .refl _
  | some => exact .after fun view => (hrea view [] none facts.2).bind fun _ => .refl _

theorem shippingSourceFacts_below (fuel : ℕ) :
    BelowReader (shippingSourceFacts c context evidence shorter fuel)
      (shippingSourceFacts c context evidence longer (fuel+1)) := by
  induction fuel with
  | zero => exact fun _ _ _ _ => .inl rfl
  | succ _ ih =>
    intro view seen orderContext st
    refine .after fun _ => ?_
    cases view.snapshot with
    | imported => exact .refl _
    | native retained =>
      cases retained with
      | none => exact .refl _
      | some => exact directSourceFacts_below ih _ _ _ _ _ _
    | edited _ _ _ retained =>
      cases retained with
      | none => exact .refl _
      | some => exact durableSourceFacts_below hres ih _ _ _ _ _ _ _ _

theorem sourceView_below {reader deeper : Evidence ρ → ShippingReader β γ φ}
    (hrea : ∀ evidence, BelowReader (reader evidence) (deeper evidence)) (source : Snapshot β)
    (st : Reading β γ) : Below (sourceView c context graph shorter reader source st)
      (sourceView c context graph longer deeper source st) := by
  cases source with
  | imported | native => exact .refl _
  | edited _ predecessorDigest _ retained =>
    refine .after fun evidence => .after fun _ => .after fun _ => ?_
    refine .bind ?_ fun _ => .refl _
    refine .after fun row => (hres predecessorDigest _).bind fun predecessor => ?_
    refine .after fun _ => .after fun refunds => ?_
    refine (consumedIds_below hres _ _ _ _ _).bind fun consumed => .after fun _ => ?_
    refine .bind (.after fun _ => ?_) fun _ => .refl _
    cases retained with
    | none => exact .refl _
    | some => exact (hrea evidence _ _ _ _).bind fun _ => .refl _

end

end Longer

theorem resolve_below (fuel : ℕ) :
    BelowAll (resolve c context graph fuel) (resolve c context graph (fuel+1)) := by
  induction fuel with
  | zero => exact fun _ _ => .inl rfl
  | succ fuel ih =>
    intro hash st
    rw [resolve,resolve]
    dsimp only
    cases st.cache.lookup hash with
    | some => exact .refl _
    | none =>
      refine .after fun source => .after fun _ => ?_
      exact (sourceView_below ih (fun _ => shippingSourceFacts_below ih fuel) _ _).bind
        fun _ => .refl _

theorem read_below (fuel : ℕ) (raw : Option (Snapshot β)) :
    Below (readCurrentPricingGraph c context fuel raw)
      (readCurrentPricingGraph c context (fuel+1) raw) := by
  cases raw with
  | none => exact .refl _
  | some =>
    refine .after fun graph => (resolve_below fuel _ _).bind fun view => .after fun _ => ?_
    cases context.creditEvidence with
    | none => exact .refl _
    | some => exact (consumedIds_below (resolve_below fuel) _ _ _ _ _).bind fun _ => .refl _

/-- Depth of recursion that no reading of a context exceeds. -/
def depthBound (context : Context β ρ) : ℕ := 5*context.pricingSources.length+4

theorem read_ends (hfue : depthBound context≤fuel) (raw : Option (Snapshot β)) :
    Ends (readCurrentPricingGraph c context fuel raw) := by
  cases raw with
  | none => simp [Ends,readCurrentPricingGraph]
  | some raw =>
    refine (gather_spec c context raw).1.bind fun graph hgra => ?_
    have hsou := (gather_spec c context raw).2 graph hgra
    have hanc : ancestry context.pricingSources≤context.pricingSources.length := by
      rw [ancestry,← length_map CreditPricingSource.id]
      exact (dedup_sublist _).length_le
    have heno : (digestsOf graph).length+ancestry context.pricingSources+2≤fuel := by
      rw [depthBound] at hfue
      omega
    have hres : Resolves [] [] (resolve c context graph fuel) :=
      resolve_settles nodup_nil (nil_subset _) (by simp) heno []
    have hfst := hres (c.digest (some raw)) ⟨[],[],[]⟩ rfl rfl
    refine hfst.1.bind fun result hresu => (check_ends _).bind fun _ _ => ?_
    obtain ⟨hvis,hedi⟩ := hfst.2 result.1 result.2 hresu
    cases context.creditEvidence with
    | none => simp [Ends]
    | some => exact (consumedIds_settles hres _ _ _ _ hvis hedi).1.bind fun _ _ => by simp [Ends]

/-- Reading a pricing graph ends: whatever the digests, the raw snapshot, the
durable rows and the other checks are, no reading needs a deeper recursion than
the bound, and what it returns or throws there is its answer. -/
theorem pricing_graph_ends (c : Checks β γ φ ρ κ) (context : Context β ρ)
    (raw : Option (Snapshot β)) :
    ∃ answer : Except String (Option (View β γ)), ∀ fuel, depthBound context≤fuel →
      readCurrentPricingGraph c context fuel raw=check answer := by
  have hsta : ∀ more, readCurrentPricingGraph c context (depthBound context+more) raw =
      readCurrentPricingGraph c context (depthBound context) raw := by
    intro more
    induction more with
    | zero => rfl
    | succ more ih =>
      rcases read_below (c := c) (depthBound context+more) raw with hcut|heq
      · exact absurd hcut (read_ends (Nat.le_add_right _ _) raw)
      · exact heq.symm.trans ih
  have hend := read_ends (c := c) (le_refl (depthBound context)) raw
  cases hrd : readCurrentPricingGraph c context (depthBound context) raw with
  | ok view =>
    refine ⟨.ok view,fun fuel hfue => ?_⟩
    obtain ⟨more,rfl⟩ := Nat.exists_eq_add_of_le hfue
    rw [hsta more,hrd]
    rfl
  | error stop =>
    cases stop with
    | outOfFuel => exact absurd hrd hend
    | threw message =>
      refine ⟨.error message,fun fuel hfue => ?_⟩
      obtain ⟨more,rfl⟩ := Nat.exists_eq_add_of_le hfue
      rw [hsta more,hrd]
      rfl

end SellRight.PricingGraphEnds
