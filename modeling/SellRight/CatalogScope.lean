import Mathlib.Data.List.Sort

/-!
# Scoped catalogue publications

A scoped publication rebuilds the affected products, drops their old entries by
current slug and by the id in the old native manifest, and reuses everything
else. Its entries are those of a full rebuild, and so are its details but for
the time stamp that reused files keep.
-/

namespace SellRight.CatalogScope

open List

variable {γ α δ : Type}

/-- Product row with the data its entries are built from. -/
structure Product (γ : Type) where
  (id slug name : String)
  /-- Active and not deleted. -/
  listed : Bool
  /-- Variants it owns, disabled ones included. -/
  variants : List String
  content : γ

structure Entry (α : Type) where
  (id slug name : String)
  facts : α

/-- Detail file, named by its slug. -/
structure Detail (δ : Type) where
  lastUpdated : ℕ
  slug : String
  page : δ
  deriving DecidableEq

/-- Rendering of a product in both formats, native or not, and the order of names. -/
structure World (γ α δ : Type) where
  facts : Bool → γ → α
  page : Bool → Product γ → δ
  safeSlug : String → Bool
  localeLe : String → String → Bool
  total : ∀ a b, (localeLe a b||localeLe b a)=true
  trans : ∀ a b c, localeLe a b=true→localeLe b c=true→localeLe a c=true

/-- One format of a generation. -/
structure Part (α δ : Type) where
  totalItems : ℕ
  entries : List (Entry α)
  details : List (Detail δ)

/-- Published generation, native or not. -/
abbrev Generation (α δ : Type) := Bool → Part α δ

structure Payload (α δ : Type) where
  entries : Bool → List (Entry α)
  details : Bool → List (Detail δ)
  /-- Slugs whose files are taken from the current generation. -/
  reuse : List String

inductive PublishError where
  | invalidSlug | catalogReuse

section
variable (w : World γ α δ) (now : ℕ) (products : List (Product γ))

def byName (a b : Entry α) : Bool := w.localeLe a.name b.name

/-- Entry of a product, known by its slug or natively by its id. -/
def entry (native : Bool) (p : Product γ) : Entry α :=
  ⟨if native then p.id else p.slug,p.slug,p.name,w.facts native p.content⟩

def detail (native : Bool) (p : Product γ) : Detail δ := ⟨now,p.slug,w.page native p⟩

def listed : List (Product γ) := products.filter Product.listed

def sortByName (entries : List (Entry α)) : List (Entry α) :=
  entries.insertionSort fun a b => byName w a b=true

/-- Put an entry and what follows it into a sorted list. -/
def mergeInto (e : Entry α) (rest : List (Entry α) → List (Entry α)) :
    List (Entry α) → List (Entry α)
  | [] => e::rest []
  | f::fresh => if byName w e f then e::rest (f::fresh) else f::mergeInto e rest fresh

/-- Merge two sorted lists, the first going first on ties. -/
def mergeByName : List (Entry α) → List (Entry α) → List (Entry α)
  | [] => id
  | e::unchanged => mergeInto w e (mergeByName unchanged)

/-- Everything that is built from the database. -/
def fullPayload : Payload α δ where
  entries native := sortByName w ((listed products).map (entry w native))
  details native := (listed products).map (detail w now native)
  reuse := []

/-- Ids of the products named directly or by a variant. -/
def affectedIds (variantIds productIds : List String) : List String :=
  (products.filter fun p => p.variants.any variantIds.contains||productIds.contains p.id).map
    Product.id

def affectedProducts (affected : List String) : List (Product γ) :=
  products.filter fun p => affected.contains p.id

/-- Slugs of the affected products, now and in the old native manifest. -/
def staleSlugs (current : Generation α δ) (affected : List String) : List String :=
  (affectedProducts products affected).map Product.slug ++
    ((current true).entries.filter fun e => affected.contains e.id).map Entry.slug

/-- Entries of a format that stay. -/
def unchanged (current : Generation α δ) (affected : List String) (native : Bool) :
    List (Entry α) :=
  (current native).entries.filter fun e => !(staleSlugs products current affected).contains e.slug

/-- Entries of the affected products with everything else reused. -/
def scopedPayload (current : Generation α δ) (affected : List String) : Payload α δ where
  entries native := mergeByName w (unchanged products current affected native)
    (sortByName w ((listed (affectedProducts products affected)).map (entry w native)))
  details native := (listed (affectedProducts products affected)).map (detail w now native)
  reuse := (unchanged products current affected false).map Entry.slug

/-- Write a payload as the next generation. -/
def publishGeneration (payload : Payload α δ) (previous : Option (Generation α δ)) :
    Except PublishError (Generation α δ) :=
  if [false,true].any fun native => !((payload.details native).map Detail.slug).all w.safeSlug ||
      decide ¬ ((payload.details native).map Detail.slug).Nodup then .error .invalidSlug
  else if [false,true].any fun native => (payload.details native).any fun d =>
    payload.reuse.contains d.slug then .error .catalogReuse
  else .ok fun native => ⟨(payload.entries native).length,payload.entries native,
    payload.details native++(previous.elim [] fun g =>
      (g native).details.filter fun d => payload.reuse.contains d.slug)⟩

/-- A generation a scoped publication may start from. -/
def usable (g : Generation α δ) : Bool :=
  [false,true].all fun native =>
    let slugs := (g native).entries.map Entry.slug
    decide ((g native).totalItems=slugs.length∧slugs.Nodup) && slugs.all w.safeSlug &&
      ((g true).entries.map Entry.slug).all ((g false).entries.map Entry.slug).contains &&
      decide ((g true).entries.length=(g false).entries.length ∧
        (g native).details.length=slugs.length) &&
      slugs.all ((g native).details.map Detail.slug).contains &&
      decide ((g native).entries.IsChain fun a b => byName w a b=true)

/-- Publish in scope where the current generation can be reused, else in full. -/
def publishCatalogManifest (current : Option (Generation α δ))
    (variantIds productIds : List String) : Except PublishError (Generation α δ) :=
  let full := publishGeneration w (fullPayload w now products) current
  match current.filter (usable w) with
  | none => full
  | some g =>
    let affected := affectedIds products variantIds productIds
    if affected=[] then full
    else match publishGeneration w (scopedPayload w now products g affected) (some g) with
      | .error .catalogReuse => full
      | result => result

end

/-- The affected ids include those of all products that are listed differently. -/
def Covers (before after : List (Product γ)) (affected : List String) : Prop :=
  ∀ p : Product γ, p.listed=true→p.id∉affected→(p∈before ↔ p∈after)

/-- Slugs are unique, those of deleted products included. -/
abbrev Keyed (products : List (Product γ)) : Prop := (products.map Product.slug).Nodup

/-- What a detail shows, without its time stamp. -/
def shown (d : Detail δ) : String×δ := (d.slug,d.page)

/-- One format shows the listed products, sorted by name. -/
structure Reflects (w : World γ α δ) (products : List (Product γ)) (native : Bool)
    (part : Part α δ) : Prop where
  total : part.totalItems=part.entries.length
  entries : part.entries.Perm ((listed products).map (entry w native))
  sorted : part.entries.Pairwise fun a b => byName w a b=true
  details : (part.details.map shown).Perm
    ((listed products).map fun p => (p.slug,w.page native p))

theorem sortByName_sorted (w : World γ α δ) (entries : List (Entry α)) :
    (sortByName w entries).Pairwise fun a b => byName w a b=true := by
  have htot : Std.Total fun a b : Entry α => byName w a b=true :=
    ⟨fun a b => (Bool.or_eq_true _ _).mp (w.total a.name b.name)⟩
  have htra : IsTrans (Entry α) fun a b => byName w a b=true :=
    ⟨fun a b c => w.trans a.name b.name c.name⟩
  exact pairwise_insertionSort _ entries

theorem mergeByName_eq (w : World γ α δ) (unchanged fresh : List (Entry α)) :
    mergeByName w unchanged fresh=unchanged.merge fresh (byName w) := by
  induction unchanged generalizing fresh with
  | nil => rw [nil_merge]; rfl
  | cons e _ ih =>
    induction fresh with
    | nil => rw [merge_right,mergeByName,mergeInto,ih,merge_right]
    | cons f _ ihf =>
      rw [mergeByName] at ihf
      rw [cons_merge_cons,mergeByName,mergeInto,ih,ihf]

variable {affected : List String} {g : Generation α δ}

section
variable {w : World γ α δ} {now : ℕ} {before after : List (Product γ)}

theorem slug_inj (hkey : Keyed before) {p q : Product γ} (hp : p∈before) (hq : q∈before)
    (h : p.slug=q.slug) : p=q :=
  inj_on_of_nodup_map hkey hp hq h

/-- Outside the affected ids the listed products stay. -/
theorem untouched_perm (hbef : Keyed before) (haft : Keyed after)
    (hcov : Covers before after affected) :
    ((listed before).filter fun p => !affected.contains p.id).Perm
      ((listed after).filter fun p => !affected.contains p.id) := by
  refine (perm_ext_iff_of_nodup ((hbef.of_map.filter _).filter _)
    ((haft.of_map.filter _).filter _)).mpr fun p => ?_
  simp only [mem_filter,Bool.not_eq_true',← Bool.not_eq_true,contains_iff_mem]
  constructor
  · rintro ⟨⟨hp,hlis⟩,hno⟩
    exact ⟨⟨(hcov p hlis hno).mp hp,hlis⟩,hno⟩
  · rintro ⟨⟨hp,hlis⟩,hno⟩
    exact ⟨⟨(hcov p hlis hno).mpr hp,hlis⟩,hno⟩

/-- The stale slugs of listed products are those of the affected ones. -/
theorem mem_staleSlugs (hbef : Keyed before) (haft : Keyed after)
    (hcov : Covers before after affected)
    (hg : Reflects w before true (g true)) {p : Product γ} (hp : p∈listed before) :
    p.slug∈staleSlugs after g affected ↔ p.id∈affected := by
  obtain ⟨hmem,hlis⟩ := mem_filter.mp hp
  constructor
  · intro h
    by_contra hno
    rcases mem_append.mp h with h|h
    · obtain ⟨q,hq,heq⟩ := mem_map.mp h
      obtain ⟨hq,hid⟩ := mem_filter.mp hq
      obtain rfl := slug_inj haft hq ((hcov p hlis hno).mp hmem) heq
      exact hno (contains_iff_mem.mp hid)
    · obtain ⟨e,he,heq⟩ := mem_map.mp h
      obtain ⟨he,hid⟩ := mem_filter.mp he
      obtain ⟨q,hq,rfl⟩ := mem_map.mp (hg.entries.mem_iff.mp he)
      obtain rfl := slug_inj hbef (mem_filter.mp hq).1 hmem heq
      exact hno (contains_iff_mem.mp hid)
  · intro h
    refine mem_append_right _ (mem_map.mpr ⟨entry w true p,mem_filter.mpr ⟨?_,?_⟩,rfl⟩)
    · exact hg.entries.mem_iff.mpr (mem_map_of_mem hp)
    · exact contains_iff_mem.mpr h

/-- Fresh and kept products make up the listed ones. -/
theorem listed_split (affected : List String) :
    ((listed after).filter (fun p => !affected.contains p.id)++
      listed (affectedProducts after affected)).Perm (listed after) := by
  have hcom : listed (affectedProducts after affected) =
      (listed after).filter fun p => affected.contains p.id := filter_comm ..
  rw [hcom]
  exact perm_append_comm.trans (filter_append_perm ..)

variable {previous : Option (Generation α δ)}

theorem fullPayload_reflects
    (hrun : publishGeneration w (fullPayload w now after) previous=.ok g) (native : Bool) :
    Reflects w after native (g native) := by
  unfold publishGeneration at hrun
  split_ifs at hrun
  cases hrun
  refine ⟨rfl,perm_insertionSort _ _,sortByName_sorted w _,?_⟩
  have hno : (previous.elim [] fun g =>
      (g native).details.filter fun d => [].contains d.slug)=([] : List (Detail δ)) := by
    cases previous <;> simp
  simp only [fullPayload,hno,append_nil,map_map]
  exact .refl _

variable {next : Generation α δ}

/-- What a scoped publication writes shows the listed products. -/
theorem scopedPayload_reflects (hbef : Keyed before) (haft : Keyed after)
    (hcov : Covers before after affected)
    (hg : ∀ native, Reflects w before native (g native))
    (hrun : publishGeneration w (scopedPayload w now after g affected) (some g)=.ok next)
    (native : Bool) : Reflects w after native (next native) := by
  unfold publishGeneration at hrun
  split_ifs at hrun
  cases hrun
  have hsta : ∀ p∈listed before, (!(staleSlugs after g affected).contains p.slug) =
      !affected.contains p.id := fun p hp => by
    simp [mem_staleSlugs hbef haft hcov (hg true) hp]
  have hkept : ∀ native, (unchanged after g affected native).Perm
      (((listed after).filter fun p => !affected.contains p.id).map (entry w native)) := by
    intro native
    refine (((hg native).entries.filter _).trans ?_).trans
      ((untouched_perm hbef haft hcov).map _)
    rw [filter_map]
    exact (Perm.of_eq (congrArg _ (filter_congr hsta)))
  refine ⟨rfl,?_,?_,?_⟩
  · refine (Perm.of_eq (mergeByName_eq w _ _)).trans ((merge_perm_append _).trans
      (((hkept native).append (perm_insertionSort _ _)).trans ?_))
    rw [← map_append]
    exact (listed_split affected).map _
  · dsimp only [scopedPayload]
    rw [mergeByName_eq]
    exact pairwise_merge (fun a b c : Entry α => w.trans a.name b.name c.name)
      (fun a b : Entry α => w.total a.name b.name) _ _ ((hg native).sorted.filter _)
      (sortByName_sorted w _)
  · have hreu : ∀ p∈listed before,
        ((unchanged after g affected false).map Entry.slug).contains p.slug =
          !affected.contains p.id := fun p hp => by
      rw [Bool.eq_iff_iff,contains_iff_mem,((hkept false).map _).mem_iff,map_map,
        ← ((untouched_perm hbef haft hcov).map _).mem_iff]
      constructor
      · intro h
        obtain ⟨q,hq,heq⟩ := mem_map.mp h
        obtain ⟨hq,hno⟩ := mem_filter.mp hq
        obtain rfl := slug_inj hbef (mem_filter.mp hq).1 (mem_filter.mp hp).1 heq
        exact hno
      · exact fun h => mem_map.mpr ⟨p,mem_filter.mpr ⟨hp,h⟩,rfl⟩
    have hold : (((g native).details.filter fun d => ((unchanged after g affected false).map
        Entry.slug).contains d.slug).map shown).Perm
          (((listed after).filter fun p => !affected.contains p.id).map
            fun p => (p.slug,w.page native p)) := by
      refine Perm.trans ?_ ((untouched_perm hbef haft hcov).map _)
      have hfil := ((hg native).details.filter fun s =>
        ((unchanged after g affected false).map Entry.slug).contains s.1)
      rw [filter_map,filter_map] at hfil
      refine hfil.trans (Perm.of_eq ?_)
      exact congrArg _ (filter_congr hreu)
    refine .trans ?_ ((listed_split affected).map _)
    rw [map_append,map_append]
    refine perm_append_comm.trans (hold.append ?_)
    rw [scopedPayload,map_map]
    exact .refl _

/-- A detail is written anew or copied from the previous generation. -/
theorem publishGeneration_details {payload : Payload α δ}
    (hrun : publishGeneration w payload previous=.ok g) {native : Bool} {d : Detail δ}
    (hd : d∈(g native).details) :
    d∈payload.details native∨∃ old, previous=some old∧d∈(old native).details := by
  unfold publishGeneration at hrun
  split_ifs at hrun
  cases hrun
  refine (mem_append.mp hd).imp_right fun hold => ?_
  cases previous with
  | none => cases hold
  | some old => exact ⟨old,rfl,mem_of_mem_filter hold⟩

variable {variantIds productIds : List String}

/-- Details written anew are those of a full rebuild. -/
theorem publishCatalogManifest_details
    (hrun : publishCatalogManifest w now after (some g) variantIds productIds=.ok next)
    {native : Bool} {d : Detail δ} (hd : d∈(next native).details) :
    d∈(fullPayload w now after).details native∨d∈(g native).details := by
  have hwri : ∀ payload : Payload α δ,
      (∀ d∈payload.details native, d∈(fullPayload w now after).details native) →
      publishGeneration w payload (some g)=.ok next →
      d∈(fullPayload w now after).details native∨d∈(g native).details := by
    intro payload hsub hpub
    refine (publishGeneration_details hpub hd).imp (hsub d) ?_
    rintro ⟨old,hold,hmem⟩
    cases hold
    exact hmem
  unfold publishCatalogManifest at hrun
  dsimp only at hrun
  split at hrun
  · exact hwri _ (fun _ => id) hrun
  · next kept hkept =>
    obtain ⟨hsome,-⟩ := Option.filter_eq_some_iff.mp hkept
    cases hsome
    split at hrun
    · exact hwri _ (fun _ => id) hrun
    split at hrun
    · exact hwri _ (fun _ => id) hrun
    · refine hwri _ (fun d hd => ?_) hrun
      obtain ⟨p,hp,rfl⟩ := mem_map.mp hd
      obtain ⟨hmem,hlis⟩ := mem_filter.mp hp
      exact mem_map_of_mem (mem_filter.mpr ⟨mem_of_mem_filter hmem,hlis⟩)

theorem publishCatalogManifest_reflects (hbef : Keyed before) (haft : Keyed after)
    (hcov : Covers before after (affectedIds after variantIds productIds))
    (hg : ∀ native, Reflects w before native (g native))
    (hrun : publishCatalogManifest w now after (some g) variantIds productIds=.ok next)
    (native : Bool) : Reflects w after native (next native) := by
  unfold publishCatalogManifest at hrun
  dsimp only at hrun
  split at hrun
  · exact fullPayload_reflects hrun native
  · next kept hkept =>
    obtain ⟨hsome,-⟩ := Option.filter_eq_some_iff.mp hkept
    cases hsome
    split at hrun
    · exact fullPayload_reflects hrun native
    split at hrun
    · exact fullPayload_reflects hrun native
    · exact scopedPayload_reflects hbef haft hcov hg hrun native

end

/-- Generations published in full or in scope, with the products at that time. -/
inductive Built (w : World γ α δ) : Generation α δ → List (Product γ) → Prop
  | full {now products previous g} (hkey : Keyed products)
      (hrun : publishGeneration w (fullPayload w now products) previous=.ok g) : Built w g products
  | inScope {now before after g next variantIds productIds} (hold : Built w g before)
      (hkey : Keyed after) (hcov : Covers before after (affectedIds after variantIds productIds))
      (hrun : publishCatalogManifest w now after (some g) variantIds productIds=.ok next) :
      Built w next after

theorem Built.reflects {w : World γ α δ} {products : List (Product γ)}
    (h : Built w g products) : Keyed products∧∀ native, Reflects w products native (g native) := by
  induction h with
  | full hkey hrun => exact ⟨hkey,fullPayload_reflects hrun⟩
  | inScope _ hkey hcov hrun ih =>
    exact ⟨hkey,publishCatalogManifest_reflects ih.1 hkey hcov ih.2 hrun⟩

/-- A scoped publication equals a full rebuild up to the time stamps of reused details, which
are files of the current generation. -/
theorem scoped_equals_full {w : World γ α δ} {now : ℕ} {before after : List (Product γ)}
    {variantIds productIds : List String} {g next : Generation α δ} (hbui : Built w g before)
    (hkey : Keyed after) (hcov : Covers before after (affectedIds after variantIds productIds))
    (hrun : publishCatalogManifest w now after (some g) variantIds productIds=.ok next)
    (native : Bool) :
    (next native).entries.Perm ((fullPayload w now after).entries native) ∧
      ((next native).details.map shown).Perm
        (((fullPayload w now after).details native).map shown) ∧
      ((next native).entries.map Entry.slug).Nodup ∧
      ((next native).details.map Detail.slug).Nodup ∧
      (next native).totalItems=(listed after).length ∧
      ((next native).entries.Pairwise fun a b => byName w a b=true) ∧
      ∀ d∈(next native).details,
        d∈(fullPayload w now after).details native∨d∈(g native).details := by
  have h := publishCatalogManifest_reflects hbui.reflects.1 hkey hcov hbui.reflects.2 hrun native
  have hslug : ((listed after).map Product.slug).Nodup :=
    hkey.sublist (filter_sublist.map _)
  refine ⟨h.entries.trans (perm_insertionSort _ _).symm,?_,?_,?_,?_,h.sorted,
    fun _ => publishCatalogManifest_details hrun⟩
  · rw [fullPayload,map_map]
    exact h.details
  · rw [(h.entries.map _).nodup_iff,map_map]
    exact hslug
  · have hper := h.details.map Prod.fst
    rw [map_map,map_map] at hper
    exact hper.nodup_iff.mpr hslug
  · rw [h.total,h.entries.length_eq,length_map]

/-- Shop that shows one number of each product. -/
def shop : World ℕ ℕ ℕ where
  facts _ content := content
  page _ p := p.content
  safeSlug slug := slug≠""
  localeLe a b := decide (a≤b)
  total a b := by simpa using String.le_total a b
  trans a b c := by simpa using fun hab hbc => String.le_trans hab hbc

def shelf : List (Product ℕ) :=
  [⟨"1","ant","Ant",true,[],1⟩,⟨"2","bee","Bee",true,[],2⟩,⟨"3","cat","Cat",true,[],3⟩]

/-- Two products have swapped their slugs and one its name. -/
def swapped : List (Product ℕ) :=
  [⟨"2","ant","Bee",true,[],2⟩,⟨"3","cat","Cat",true,[],3⟩,⟨"1","bee","Zebra",true,[],1⟩]

theorem covers_swapped : Covers shelf swapped (affectedIds swapped [] ["1","2"]) := by
  intro p _ hno
  have hant : p.id≠"1" := fun h => hno (by rw [h]; decide)
  have hbee : p.id≠"2" := fun h => hno (by rw [h]; decide)
  constructor
  · intro hp
    rcases hp with _|⟨_,_|⟨_,_|⟨_,⟨⟩⟩⟩⟩ <;> simp_all [swapped]
  · intro hp
    rcases hp with _|⟨_,_|⟨_,_|⟨_,⟨⟩⟩⟩⟩ <;> simp_all [shelf]

/-- The untouched product keeps the time stamp of the first publication. -/
theorem publish_swapped : ∃ g next, Built shop g shelf ∧
    publishCatalogManifest shop 2 swapped (some g) [] ["1","2"]=.ok next ∧
    (next false).details.map Detail.lastUpdated=[2,2,1] := by
  have h : ((publishGeneration shop (fullPayload shop 1 shelf) none).toOption.any fun g =>
      (publishCatalogManifest shop 2 swapped (some g) [] ["1","2"]).toOption.any fun next =>
        decide ((next false).details.map Detail.lastUpdated=[2,2,1]))=true := by decide +kernel
  cases hful : publishGeneration shop (fullPayload shop 1 shelf) none with
  | error =>
    rw [hful] at h
    cases h
  | ok g =>
    rw [hful] at h
    change (publishCatalogManifest shop 2 swapped (some g) [] ["1","2"]).toOption.any _=true at h
    cases hrun : publishCatalogManifest shop 2 swapped (some g) [] ["1","2"] with
    | error =>
      rw [hrun] at h
      cases h
    | ok next =>
      rw [hrun] at h
      exact ⟨g,next,.full (by decide) hful,hrun,of_decide_eq_true h⟩

theorem scoped_equals_full_swapped : ∃ next : Generation ℕ ℕ,
    (next true).entries.Perm ((fullPayload shop 2 swapped).entries true) ∧
      (next true).totalItems=3 := by
  obtain ⟨g,next,hbui,hrun,-⟩ := publish_swapped
  have h := scoped_equals_full hbui (by decide) covers_swapped hrun true
  exact ⟨next,h.1,h.2.2.2.2.1⟩

/-- A full rebuild would have stamped it anew. -/
theorem scoped_keeps_stamp : ∃ g next, Built shop g shelf∧Keyed swapped ∧
    Covers shelf swapped (affectedIds swapped [] ["1","2"]) ∧
    publishCatalogManifest shop 2 swapped (some g) [] ["1","2"]=.ok next ∧
    ¬ (next false).details.Perm ((fullPayload shop 2 swapped).details false) := by
  obtain ⟨g,next,hbui,hrun,hsta⟩ := publish_swapped
  refine ⟨g,next,hbui,by decide,covers_swapped,hrun,fun hper => ?_⟩
  have hmem := (hper.map Detail.lastUpdated).mem_iff (a := 1)
  rw [hsta] at hmem
  exact absurd (hmem.mp (by decide)) (by decide)

end SellRight.CatalogScope
