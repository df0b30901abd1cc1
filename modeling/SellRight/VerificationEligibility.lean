import SellRight.VerificationSteps

/-!
# Eligibility follows the verifications

As long as no rewrite of the customer commits between the first statement of another
one and its commit, the cached categories are those of the verified rows and of the
imported entries, up to what has lapsed since the last rewrite. A sweep that has
something to rewrite, or that finds nothing lapsed, makes them exact.
-/

namespace SellRight.VerificationEligibility

open RowTable RunHistory VerificationService VerificationSteps List

variable {s : Store} {t t' : Tx} {rows rows' : List Verification}
variable {entries : List VerificationEntry} {asOf : ℕ}

/-- A run of the store. -/
abbrev History := List (Event Store Action Answer)

def committed (e : Event Store Action Answer) : Option Tx :=
  match e.action with
  | .commit conn => if e.result=.done then findTx e.before conn else none
  | _ => none

/-- No other rewrite of the customer committed since the first statement of the
committed one. -/
def Serial (e : Event Store Action Answer) : Prop :=
  match committed e with
  | none => True
  | some t => t.entries.isSome=true→t.version=some e.before.version

instance : DecidablePred Serial := by
  intro e
  unfold Serial
  split <;> infer_instance

/-- The sweep finds a lapsed row, or neither an imported entry has lapsed nor a
verified row lapses at this very time. -/
def Notices (s : Store) (now : ℕ) : Prop := (∃ r∈s.rows, isStale now r=true) ∨
    ((∀ e∈s.entries, isManaged s.rows e=false→isLive e.expiresAt now=true) ∧
      ∀ r∈s.rows, r.status=.success → r.expiresAt≠some now)

/-- A verified row that has not expired, or an imported entry without a row that has
neither expired nor been taken back, has the category. -/
def Valid (s : Store) (now : ℕ) (category : String) : Prop :=
  (∃ r∈s.rows, r.status=.success∧r.category=category∧category ≠ "" ∧
      isLive r.expiresAt now=true) ∨
    ∃ e∈s.imported, e.category=category∧isManaged s.rows e=false∧isLive e.expiresAt now=true

instance (s : Store) (now : ℕ) : Decidable (Notices s now) :=
  inferInstanceAs (Decidable (_∨(_∧_)))

instance (s : Store) (now : ℕ) (category : String) : Decidable (Valid s now category) :=
  inferInstanceAs (Decidable (_∨_))

def Counts (e : VerificationEntry) : Prop := e.verified=true∧e.category ≠ ""

instance : DecidablePred Counts := fun _ => inferInstanceAs (Decidable (_∧_))

/-- A customer as imported: entries, the categories of the verified ones, no row. -/
structure Opening (s : Store) : Prop where
  rows : s.rows=[]
  txs : s.txs=[]
  imported : ∀ e, e∈s.imported ↔ e∈s.entries∧Counts e
  /-- The categories are those of the verified entries. -/
  active : ∀ c, c∈s.active ↔ ∃ e∈s.imported, e.category=c

/-- No verified row that the transaction sees has a category it takes back. -/
def Cleaned (rows : List Verification) (t : Tx) : Prop :=
  ∀ r∈overlay rows t.rows, r.status=.success→strikes t.request r.category=false

/-- The entries without the categories that the transaction takes back. -/
def Based (entries : List VerificationEntry) (t : Tx) (kept : List VerificationEntry) : Prop :=
  ∀ e, e∈kept ↔ e∈entries∧strikes t.request e.category=false

section
variable (rows : List Verification) (entries : List VerificationEntry) (t : Tx)

/-- The entries rebuilt from these and from the rows that the transaction sees. -/
def Rebuilt (new : List VerificationEntry) : Prop :=
  ∀ e, e∈new ↔ (e∈entries∧strikes t.request e.category=false ∧
        isLegacy (overlay rows t.rows) t.now e=true) ∨
      ∃ r∈overlay rows t.rows, isGranting t.now r=true∧e=entryOf r

/-- What a transaction has done about the stored rows and entries, as long as nobody
else has rewritten them. -/
def Progress : Prop :=
  match t.phase with
  | .place _ target => ∀ row, target=some row → row∈rows∧row.verificationId = ""
  | .readEntries => (∃ c, t.request=.clear c)∨Cleaned rows t
  | .revokeRows read => ∀ kept, read=some kept→kept=entries
  | .revokeThese ids read => (∀ r∈overlay rows t.rows, isStruck t.request r=true → r.id∈ids) ∧
      ∀ kept, read=some kept→kept=entries
  | .expireThese ids => ∀ r∈overlay rows t.rows, isStale t.now r=true → r.id∈ids
  | .strip read => read=entries∧Cleaned rows t
  | .readCustomer => Cleaned rows t∧Based entries t (t.entries.getD entries)
  | .readRows read => Cleaned rows t∧Based entries t read
  | .write new => Cleaned rows t∧Rebuilt rows entries t new
  | .finished =>
    (t.entries=none→t.request=.sweep→∀ r∈rows, isStale t.now r=false) ∧
      ∀ new, t.entries=some new → Cleaned rows t∧Rebuilt rows entries t new
  | _ => True

end

/-- A transaction keeps the provider identifiers of stored rows. -/
structure Knows (rows : List Verification) (entries : List VerificationEntry) (t : Tx) : Prop where
  /-- A rewritten row keeps its provider identifier. -/
  names : ∀ o∈t.rows, ∀ r∈rows, r.id=o.id → r.verificationId ≠ "" →
    o.verificationId=r.verificationId
  progress : Progress rows entries t

variable {c : String} {new : List VerificationEntry}

/-- What is granted is not taken back. -/
theorem strikes_of_grants {request : Request} (h : grants request c=true) :
    strikes request c=false := by
  cases request with
  | webhook =>
    obtain ⟨hsuc,-⟩ := (Bool.and_eq_true _ _).mp h
    simp [strikes,hsuc]
  | _ => cases h

theorem cleaned_revoke {ids : List ℕ} (htx : TxSound s t)
    (hpic : ∀ r∈seen s t, isStruck t.request r=true → r.id∈ids)
    {next : Phase} (hids : ((setStatus s t (isPicked ids (isStruck t.request)) .revoked
      next).rows.map Verification.id).Nodup) :
    Cleaned s.rows (setStatus s t (isPicked ids (isStruck t.request)) .revoked next) := by
  intro r hr hsuc
  rcases (mem_overlay hids).mp hr with hwri|⟨hsto,hfr⟩
  · rcases mem_putRows.mp hwri with ⟨hown,-⟩|hcopy
    · exact strikes_of_grants (htx.granted r hown hsuc).2
    · obtain ⟨old,-,rfl⟩ := mem_map.mp hcopy
      cases hsuc
  · by_contra hstr
    rw [Bool.not_eq_false] at hstr
    have hsee : r∈seen s t := by
      refine (mem_overlay htx.ids).mpr (.inr ⟨hsto,fun o ho hid => ?_⟩)
      by_cases hcop : ∃ c∈((seen s t).filter (isPicked ids (isStruck t.request))).map
          (fun r => {r with status := .revoked}),c.id=o.id
      · obtain ⟨c,hc,heq⟩ := hcop
        exact hfr c (mem_putRows.mpr (.inr hc)) (heq.trans hid)
      · exact hfr o (mem_putRows.mpr (.inl ⟨ho,fun c hc heq => hcop ⟨c,hc,heq⟩⟩)) hid
    have hstk : isStruck t.request r=true :=
      (Bool.and_eq_true _ _).mpr ⟨decide_eq_true hsuc,hstr⟩
    have htgt : r∈(seen s t).filter (isPicked ids (isStruck t.request)) :=
      mem_filter.mpr ⟨hsee,(Bool.and_eq_true _ _).mpr ⟨decide_eq_true (hpic r hsee hstk),hstk⟩⟩
    exact hfr _ (mem_putRows.mpr (.inr (mem_map.mpr ⟨r,htgt,rfl⟩))) rfl

variable {p : Verification → Bool}

/-- Every row that satisfies a predicate is selected by it. -/
theorem mem_select {r : Verification} (hr : r∈seen s t)
    (hp : p r=true) : r.id∈select s t p :=
  mem_map.mpr ⟨r,mem_filter.mpr ⟨hr,hp⟩,rfl⟩

/-- Without categories to take back, the entries are their own base. -/
theorem based_self (h : ∀ c, strikes t.request c=false) (hno : t.entries=none) :
    Based entries t (t.entries.getD entries) := by
  intro e
  rw [hno,Option.getD_none]
  exact ⟨fun he => ⟨he,h _⟩,And.left⟩

/-- A sweep and a report without a failed category take nothing back. -/
theorem strikes_webhook {d : Details} (h : ¬ (!d.succeeded&&decide (d.category ≠ ""))=true)
    (c : String) : strikes (.webhook d) c=false := by
  simp only [strikes,h,Bool.false_and]

/-- An outcome keeps what the transaction knows. -/
theorem Knows.record {d : Details} {target : Option Verification} (hsd : Sound s)
    (htx : TxSound s t) (hkno : Knows s.rows s.entries t) (createdAt : ℕ)
    (hph : t.phase=.place d target) : Knows s.rows s.entries
      (recordOutcome t d ((target.map Verification.id).getD t.fresh) createdAt) := by
  have hsh := htx.shape
  have hpro := hkno.progress
  unfold Shape at hsh
  unfold Progress at hpro
  rw [hph] at hsh hpro
  obtain ⟨hreq,-,-,hent,-⟩ := hsh
  refine ⟨fun o ho r hr heq hnm => ?_,?_⟩
  · cases mem_singleton.mp ho
    cases target with
    | none => exact absurd heq (htx.unstored r hr)
    | some row =>
      obtain ⟨hrow,hbla⟩ := hpro row rfl
      cases eq_of_key_eq Verification.id hsd.ids hr hrow heq
      exact absurd hbla hnm
  · unfold Progress recordOutcome
    dsimp only
    split_ifs with hfai
    · exact nofun
    have hnot : ∀ c, strikes t.request c=false := by
      rw [hreq]
      exact strikes_webhook hfai
    exact ⟨fun r _ _ => hnot r.category,based_self hnot hent⟩

/-- A row keeps its provider identifier when its status changes. -/
theorem names_update {status : Status} {next : Phase} (hsd : Sound s)
    (htx : TxSound s t) (hkno : Knows s.rows s.entries t) :
    ∀ o∈(setStatus s t p status next).rows, ∀ r∈s.rows, r.id=o.id → r.verificationId ≠ "" → o.verificationId=r.verificationId := by
  intro o ho r hr hid hnm
  rcases mem_update ho with hold|⟨old,hold,rfl⟩
  · exact hkno.names o hold r hr hid hnm
  rcases (mem_overlay htx.ids).mp hold with hown|⟨hsto,-⟩
  · exact hkno.names old hown r hr hid hnm
  · cases eq_of_key_eq Verification.id hsd.ids hr hsto hid
    rfl

theorem knows_statement (h : Statement s t t') (hsd : Sound s) (htx : TxSound s t)
    (hkno : Knows s.rows s.entries t) : Knows s.rows s.entries t' := by
  have hsh := htx.shape
  have htx' := h.txSound hsd htx
  have hpro := hkno.progress
  unfold Shape at hsh
  unfold Progress at hpro
  have hblan : t.entries=none→∀ new, t.entries≠some new := fun hno new hso => by
    cases hno.symm.trans hso
  cases h with
  | insert hph =>
    rw [hph] at hsh
    refine ⟨fun o ho r hr hid _ => ?_,fun _ hswe => ?_,fun new hnew => absurd hnew (hblan hsh.2.2.1 new)⟩
    · cases mem_singleton.mp ho
      exact absurd hid (htx.unstored r hr)
    · cases hsh.1.symm.trans hswe
  | duplicate hph =>
    rw [hph] at hsh
    refine ⟨hkno.names,fun _ hswe => ?_,fun new hnew => absurd hnew (hblan hsh.2.2.1 new)⟩
    cases hsh.1.symm.trans hswe
  | found => exact ⟨hkno.names,trivial⟩
  | choose target hph hsel =>
    rw [hph] at hsh
    refine ⟨hkno.names,fun row hrow => ?_⟩
    obtain ⟨hmem,hbla⟩ := hsel hsh.2.1 row hrow
    unfold seen at hmem
    rw [hsh.2.2.2.1,overlay_nil] at hmem
    exact ⟨hmem,hbla⟩
  | record createdAt hph => exact hkno.record hsd htx createdAt hph
  | read _ hph hnx =>
    rw [hph] at hsh hpro
    obtain ⟨hent,-⟩ := hsh
    rcases hnx with ⟨rfl,-⟩|⟨rfl,hclear⟩
    · refine ⟨hkno.names,fun kept hkp => ?_⟩
      cases hkp
      rw [hent,Option.getD_none]
    · refine ⟨hkno.names,?_,?_⟩
      · rw [hent,Option.getD_none]
      · rcases hpro with ⟨c,hc⟩|hcle
        · exact absurd hc (hclear c)
        · exact hcle
  | select _ hnx =>
    rcases hnx with ⟨_,hph,rfl⟩|⟨hph,rfl⟩
    · rw [hph] at hpro
      exact ⟨hkno.names,fun r hr hstr => mem_select hr hstr,hpro⟩
    · exact ⟨hkno.names,fun r hr hsta => mem_select hr hsta⟩
  | update ids _ _ _ hcas =>
    refine ⟨names_update hsd htx hkno,?_⟩
    rcases hcas with ⟨hph,rfl,rfl,rfl⟩|⟨read,hph,rfl,rfl,rfl⟩|⟨hph,rfl,rfl,rfl⟩
    · rw [hph] at hpro
      exact .inr (cleaned_revoke htx hpro.1 htx'.ids)
    · rw [hph] at hpro
      exact ⟨hpro.2 read rfl,cleaned_revoke htx hpro.1 htx'.ids⟩
    · rw [hph] at hsh
      have hnot : ∀ c, strikes t.request c=false := by
        rw [hsh.1]
        exact fun c => rfl
      exact ⟨fun r _ _ => hnot r.category,based_self hnot hsh.2.2.1⟩
  | @strip read new hph hnew =>
    rw [hph] at hsh hpro
    obtain ⟨rfl,hcle⟩ := hpro
    refine ⟨hkno.names,hcle,fun e => ?_⟩
    rcases hnew with rfl|⟨rfl,hall⟩
    · change e∈s.entries.filter (fun e => !strikes t.request e.category) ↔ _
      rw [mem_filter,Bool.not_eq_true']
    · rw [hsh.1,Option.getD_none]
      exact ⟨fun he => ⟨he,hall e he⟩,And.left⟩
  | quiet hph hno =>
    rw [hph] at hsh hpro
    obtain ⟨-,hrs,hent,-⟩ := hsh
    refine ⟨hkno.names,fun _ _ r hr => ?_,fun new hnew => absurd hnew (hblan hent new)⟩
    have hsee : r∈seen s t := by
      unfold seen
      rwa [hrs,overlay_nil]
    by_contra hsta
    rw [Bool.not_eq_false] at hsta
    have hms := hno r hsee
    rw [isPicked,hsta,decide_eq_true (hpro r hsee hsta)] at hms
    cases hms
  | readCustomer hph =>
    rw [hph] at hpro
    exact ⟨hkno.names,hpro⟩
  | @readRows read hph =>
    rw [hph] at hpro
    obtain ⟨hcle,hbas⟩ := hpro
    refine ⟨hkno.names,hcle,fun e => ?_⟩
    unfold recompute
    rw [mem_append,mem_filter,hbas e,mem_map,and_assoc]
    refine or_congr Iff.rfl ⟨?_,?_⟩
    · rintro ⟨r,hr,rfl⟩
      obtain ⟨hmem,hgra⟩ := mem_filter.mp hr
      exact ⟨r,hmem,hgra,rfl⟩
    · rintro ⟨r,hmem,hgra,rfl⟩
      exact ⟨r,mem_filter.mpr ⟨hmem,hgra⟩,rfl⟩
  | write hph =>
    rw [hph] at hpro
    refine ⟨hkno.names,?_⟩
    refine ⟨nofun,fun new hnew => ?_⟩
    cases hnew
    exact hpro

/-- The same rows apart from pending ones, which carry no provider identifier. -/
structure SameSettled (rows rows' : List Verification) : Prop where
  settled : ∀ r, r.status≠.pending→(r∈rows' ↔ r∈rows)
  kept : ∀ r∈rows, r∈rows'
  blank : ∀ r∈rows, r.status=.pending → r.verificationId = ""
  blank' : ∀ r∈rows', r.status=.pending → r.verificationId = ""

theorem SameSettled.overlay {own : List Verification} (h : SameSettled rows rows')
    (hown : (own.map Verification.id).Nodup)
    (hbla : ∀ o∈own, o.status=.pending → o.verificationId = "") :
    SameSettled (overlay rows own) (overlay rows' own) := by
  have hpen : ∀ list : List Verification,
      (∀ r∈list, r.status=.pending → r.verificationId = "") →
      ∀ r∈VerificationService.overlay list own, r.status=.pending → r.verificationId = "" := by
    intro list hlis r hr
    rcases (mem_overlay hown).mp hr with hmem|⟨hmem,-⟩
    · exact hbla r hmem
    · exact hlis r hmem
  refine ⟨fun r hr => ?_,fun r hr => ?_,hpen rows h.blank,hpen rows' h.blank'⟩
  · rw [mem_overlay hown,mem_overlay hown,h.settled r hr]
  · exact (mem_overlay hown).mpr (((mem_overlay hown).mp hr).imp_right (.imp_left (h.kept r)))

theorem isManaged_iff {e : VerificationEntry} : isManaged rows e=true ↔
    e.verificationId ≠ "" ∧ ∃ r∈rows, r.verificationId=e.verificationId := by
  simp [isManaged]

theorem SameSettled.managed (h : SameSettled rows rows') (e : VerificationEntry) :
    isManaged rows' e=isManaged rows e := by
  rw [Bool.eq_iff_iff,isManaged_iff,isManaged_iff]
  refine and_congr_right fun hnm => ⟨?_,?_⟩
  · rintro ⟨r,hr,hid⟩
    exact ⟨r,(h.settled r fun hpen => hnm (hid.symm.trans (h.blank' r hr hpen))).mp hr,hid⟩
  · rintro ⟨r,hr,hid⟩
    exact ⟨r,(h.settled r fun hpen => hnm (hid.symm.trans (h.blank r hr hpen))).mpr hr,hid⟩

theorem Knows.settled (h : SameSettled rows rows') (htx : TxSound s t)
    (hkno : Knows rows entries t) : Knows rows' entries t := by
  have hove := h.overlay htx.ids htx.blank
  have hcle : Cleaned rows t → Cleaned rows' t := by
    intro hcle r hr hsuc
    refine hcle r ((hove.settled r ?_).mp hr) hsuc
    rw [hsuc]
    exact nofun
  have hreb : ∀ {new}, Rebuilt rows entries t new → Rebuilt rows' entries t new := by
    intro new hreb e
    rw [hreb e]
    have hleg : isLegacy (overlay rows' t.rows) t.now e =
        isLegacy (overlay rows t.rows) t.now e := by
      unfold isLegacy
      rw [hove.managed e]
    rw [hleg]
    refine or_congr Iff.rfl (exists_congr fun r => ?_)
    constructor
    · rintro ⟨hr,hgra,he⟩
      refine ⟨(hove.settled r fun hpen => ?_).mpr hr,hgra,he⟩
      simp [isGranting,hpen] at hgra
    · rintro ⟨hr,hgra,he⟩
      refine ⟨(hove.settled r fun hpen => ?_).mp hr,hgra,he⟩
      simp [isGranting,hpen] at hgra
  refine ⟨fun o ho r hr hid hnm => ?_,?_⟩
  · refine hkno.names o ho r ((h.settled r fun hpen => ?_).mp hr) hid hnm
    exact hnm (h.blank' r hr hpen)
  have hpro := hkno.progress
  unfold Progress at hpro ⊢
  cases hph : t.phase with
  | readEntries =>
    rw [hph] at hpro
    exact hpro.imp_right hcle
  | place =>
    rw [hph] at hpro
    exact fun row hrow => (hpro row hrow).imp_left (h.kept row)
  | revokeRows =>
    rw [hph] at hpro
    exact hpro
  | revokeThese =>
    rw [hph] at hpro
    refine ⟨fun r hr hstr => hpro.1 r ((hove.settled r fun hpen => ?_).mp hr) hstr,hpro.2⟩
    simp [isStruck,hpen] at hstr
  | expireThese =>
    rw [hph] at hpro
    refine fun r hr hsta => hpro r ((hove.settled r fun hpen => ?_).mp hr) hsta
    simp [isStale,hpen] at hsta
  | strip =>
    rw [hph] at hpro
    exact ⟨hpro.1,hcle hpro.2⟩
  | readCustomer | readRows =>
    rw [hph] at hpro
    exact ⟨hcle hpro.1,hpro.2⟩
  | write =>
    rw [hph] at hpro
    exact ⟨hcle hpro.1,hreb hpro.2⟩
  | finished =>
    rw [hph] at hpro
    refine ⟨fun hno hswe r hr => ?_,fun new hnew => ?_⟩
    · by_cases hpen : r.status=.pending
      · simp [isStale,hpen]
      · exact hpro.1 hno hswe r ((h.settled r hpen).mp hr)
    · exact ⟨hcle (hpro.2 new hnew).1,hreb (hpro.2 new hnew).2⟩
  | _ => trivial

/-- The entries are those of the verified rows and of the imported entries, up to what
had lapsed by a time. -/
structure InSync (s : Store) (asOf : ℕ) : Prop where
  /-- A verified entry is that of a verified row, or imported. -/
  backed : ∀ e∈s.entries, Counts e→(isManaged s.rows e=true∧e.category ≠ "" ∧
        ∃ r∈s.rows, r.status=.success∧entryOf r=e) ∨
      (isManaged s.rows e=false∧e∈s.imported)
  /-- A verified row has its entry unless it had lapsed. -/
  rowsShown : ∀ r∈s.rows, r.status=.success → r.category ≠ "" →
    entryOf r∈s.entries∨isLive r.expiresAt asOf=false
  importedShown : ∀ e∈s.imported, isManaged s.rows e=false →
    e∈s.entries∨isLive e.expiresAt asOf=false
  verified : ∀ e∈s.imported, Counts e
  active : ∀ c, c∈s.active ↔ ∃ e∈s.entries, Counts e∧e.category=c

/-- What holds of the store while rewrites are serial. -/
structure Tracked (s : Store) (asOf : ℕ) : Prop where
  sound : Sound s
  inSync : InSync s asOf
  past : asOf ≤ s.clock
  txs : ∀ t∈s.txs, (∀ v, t.version=some v→v ≤ s.version)∧t.now ≤ s.clock
  /-- Before its first statement a transaction has done nothing. -/
  idle : ∀ t∈s.txs, t.version=none→t.rows=[]∧t.entries=none∧t.phase=firstPhase t.request
  /-- A transaction that no rewrite has overtaken began after the last one. -/
  recent : ∀ t∈s.txs, t.version=some s.version→asOf≤t.now
  knows : ∀ t∈s.txs, t.version=some s.version → Knows s.rows s.entries t

theorem isLive_antitone {expiresAt : Option ℕ} {now later : ℕ} (hle : now≤later)
    (h : isLive expiresAt later=true) : isLive expiresAt now=true := by
  cases expiresAt with
  | none => rfl
  | some lapse =>
    have hlat : later<lapse := of_decide_eq_true h
    exact decide_eq_true (hle.trans_lt hlat)

theorem Opening.tracked (h : Opening s) : Tracked s s.clock := by
  have hman : ∀ e, isManaged s.rows e=false := by
    intro e
    rw [h.rows]
    exact Bool.and_false _
  have hrs : ∀ {P : Verification → Prop}, ∀ r∈s.rows, P r := by
    rw [h.rows]
    exact forall_mem_nil _
  have htx : ∀ {P : Tx → Prop}, ∀ t∈s.txs, P t := by
    rw [h.txs]
    exact forall_mem_nil _
  refine ⟨⟨?_,hrs,hrs,hrs,?_,?_,htx⟩,⟨?_,hrs,?_,?_,?_⟩,le_refl _,htx,htx,htx,htx⟩
  · rw [h.rows]
    exact nodup_nil
  · rw [h.txs]
    exact nodup_nil
  · rw [h.txs]
    exact nodup_nil
  · intro e he hcou
    exact .inr ⟨hman e,(h.imported e).mpr ⟨he,hcou⟩⟩
  · intro e he _
    exact .inl ((h.imported e).mp he).1
  · intro e he
    exact ((h.imported e).mp he).2
  · intro c
    refine (h.active c).trans (exists_congr fun e => ?_)
    rw [h.imported e,and_assoc]

theorem InSync.rewrite (hsyn : InSync s asOf) (hsd : Sound s) (ht : t∈s.txs)
    (hent : t.entries=some new)
    (hact : t.active=some (categories new)) (hkno : Knows s.rows s.entries t)
    (hreb : Rebuilt s.rows s.entries t new) (hrec : asOf≤t.now) : InSync (commitTx s t) t.now := by
  have htx := hsd.txs t ht
  have hrs' : (commitTx s t).rows=seen s t := rfl
  have hent' : (commitTx s t).entries=new := by simp [commitTx,hent]
  have hact' : (commitTx s t).active=categories new := by simp [commitTx,hact]
  have himp' : (commitTx s t).imported =
      s.imported.filter fun e => !strikes t.request e.category := by simp [commitTx,hent]
  have hnm : ∀ r∈seen s t, r.status=.success → r.verificationId ≠ "" :=
    htx.seen_of hsd.named fun o ho hsuc => (htx.granted o ho hsuc).1
  have hman : ∀ e, isManaged (seen s t) e=false→isManaged s.rows e=false := by
    intro e hno
    by_contra hso
    rw [Bool.not_eq_false] at hso
    obtain ⟨hid,r,hr,heq⟩ := isManaged_iff.mp hso
    obtain ⟨r',hr',hkp⟩ : ∃ r'∈seen s t, r'.verificationId=r.verificationId := by
      by_cases hown : ∃ o∈t.rows, o.id=r.id
      · obtain ⟨o,ho,hoid⟩ := hown
        exact ⟨o,(mem_overlay htx.ids).mpr (.inl ho),hkno.names o ho r hr hoid.symm (heq ▸ hid)⟩
      · exact ⟨r,(mem_overlay htx.ids).mpr (.inr ⟨hr,fun o ho hoid => hown ⟨o,ho,hoid⟩⟩),rfl⟩
    have htru : isManaged (seen s t) e=true := isManaged_iff.mpr ⟨hid,r',hr',hkp.trans heq⟩
    rw [hno] at htru
    cases htru
  have hcou : ∀ e∈new, Counts e := by
    intro e he
    rcases (hreb e).mp he with ⟨-,-,hleg⟩|⟨r,-,hgra,rfl⟩
    · simp only [isLegacy,Bool.and_eq_true,decide_eq_true_eq] at hleg
      exact ⟨hleg.1.2,hleg.2⟩
    · simp only [isGranting,Bool.and_eq_true,decide_eq_true_eq] at hgra
      exact ⟨rfl,hgra.1.2⟩
  refine ⟨fun e he _ => ?_,fun r hr hsuc hcat => ?_,fun e he hno => ?_,fun e he => ?_,fun c => ?_⟩
  · rw [hent'] at he
    rw [hrs',himp']
    rcases (hreb e).mp he with ⟨hold,hkp,hleg⟩|⟨r,hr,hgra,rfl⟩
    · simp only [isLegacy,Bool.and_eq_true,Bool.not_eq_true'] at hleg
      have hunm : isManaged (seen s t) e=false := hleg.1.1.1
      refine .inr ⟨hunm,?_⟩
      rcases hsyn.backed e hold (hcou e he) with ⟨hman',-⟩|⟨-,himp⟩
      · rw [hman e hunm] at hman'
        cases hman'
      · exact mem_filter.mpr ⟨himp,by rw [hkp]; rfl⟩
    · simp only [isGranting,Bool.and_eq_true,decide_eq_true_eq] at hgra
      obtain ⟨⟨hsuc,hcat⟩,-⟩ := hgra
      exact .inl ⟨isManaged_iff.mpr ⟨hnm r hr hsuc,r,hr,rfl⟩,hcat,r,hr,hsuc,rfl⟩
  · rw [hent']
    cases hlv : isLive r.expiresAt t.now with
    | false => exact .inr rfl
    | true =>
      left
      refine (hreb _).mpr (.inr ⟨r,hr,?_,rfl⟩)
      simp only [isGranting,Bool.and_eq_true,decide_eq_true_eq]
      exact ⟨⟨hsuc,hcat⟩,hlv⟩
  · rw [himp'] at he
    rw [hent']
    obtain ⟨himp,hkp⟩ := mem_filter.mp he
    rw [Bool.not_eq_true'] at hkp
    cases hlv : isLive e.expiresAt t.now with
    | false => exact .inr rfl
    | true =>
      left
      rcases hsyn.importedShown e himp (hman e hno) with hsho|hlap
      · refine (hreb e).mpr (.inl ⟨hsho,hkp,?_⟩)
        obtain ⟨hver,hcat⟩ := hsyn.verified e himp
        change isManaged (overlay s.rows t.rows) e=false at hno
        simp only [isLegacy,hno,hlv,hver,hcat,ne_eq,not_false_eq_true,
          decide_true,Bool.not_false,Bool.and_self]
      · rw [isLive_antitone hrec hlv] at hlap
        cases hlap
  · rw [himp'] at he
    exact hsyn.verified e (mem_filter.mp he).1
  · rw [hact',hent']
    unfold categories
    rw [mem_eraseDups,mem_map]
    exact exists_congr fun e => ⟨fun h => ⟨h.1,hcou e h.1,h.2⟩,fun h => ⟨h.1,h.2.2⟩⟩

/-- A commit that rewrites no entry changes pending rows at most. -/
theorem sameSettled_seen (hsd : Sound s) (htx : TxSound s t) (hfin : t.phase=.finished)
    (hno : t.entries=none) : SameSettled s.rows (seen s t) := by
  have hsh := htx.shape
  unfold Shape at hsh
  rw [hfin] at hsh
  rcases hsh.2.1 hno with ⟨hrs,-⟩|⟨-,hpen⟩
  · unfold seen
    rw [hrs,overlay_nil]
    exact ⟨fun _ _ => Iff.rfl,fun _ hr => hr,hsd.blank,hsd.blank⟩
  have hkp : ∀ r∈s.rows, r∈seen s t := fun r hr => (mem_overlay htx.ids).mpr
    (.inr ⟨hr,fun o ho hid => htx.unstored r hr (hid.symm.trans (hpen o ho).2)⟩)
  refine ⟨fun r hr => ⟨fun hsee => ?_,hkp r⟩,hkp,hsd.blank,htx.seen_of hsd.blank htx.blank⟩
  rcases (mem_overlay htx.ids).mp hsee with hown|⟨hmem,-⟩
  · exact absurd (hpen r hown).1 hr
  · exact hmem

theorem InSync.settled (hsyn : InSync s asOf) {s' : Store} (hrs : SameSettled s.rows s'.rows)
    (hent : s'.entries=s.entries) (hact : s'.active=s.active)
    (himp : s'.imported=s.imported) : InSync s' asOf := by
  have hsuc : ∀ r, r.status=.success→(r∈s'.rows ↔ r∈s.rows) :=
    fun r hr => hrs.settled r (by rw [hr]; exact nofun)
  refine ⟨fun e he hcou => ?_,fun r hr hsta hcat => ?_,fun e he hno => ?_,himp ▸ hsyn.verified,?_⟩
  · rw [himp,hrs.managed e]
    rcases hsyn.backed e (hent ▸ he) hcou with
      ⟨hman,hcat,r,hr,hsta,hentry⟩|hleg
    · exact .inl ⟨hman,hcat,r,(hsuc r hsta).mpr hr,hsta,hentry⟩
    · exact .inr hleg
  · rw [hent]
    exact hsyn.rowsShown r ((hsuc r hsta).mp hr) hsta hcat
  · rw [hent]
    exact hsyn.importedShown e (himp ▸ he) (hrs.managed e ▸ hno)
  · rw [hent,hact]
    exact hsyn.active

/-- A transaction that has done nothing keeps everything. -/
theorem knows_idle (hrs : t.rows=[]) (hent : t.entries=none) (hph : t.phase=firstPhase t.request) :
    Knows rows entries t := by
  refine ⟨fun o ho => ?_,?_⟩
  · rw [hrs] at ho
    cases ho
  unfold Progress
  rw [hph]
  cases hreq : t.request with
  | start | webhook | sweep => trivial
  | revoke => exact nofun
  | clear c => exact .inl ⟨c,rfl⟩
  | status =>
    have hnot : ∀ c, strikes t.request c=false := by
      rw [hreq]
      exact fun c => rfl
    exact ⟨fun r _ _ => hnot r.category,based_self hnot hent⟩

theorem Tracked.drop (h : Tracked s asOf) (conn : ℕ) : Tracked (dropTx s conn) asOf := by
  have hmem : ∀ t∈(dropTx s conn).txs, t∈s.txs := fun t ht => (mem_deleteWhere.mp ht).1
  exact ⟨h.sound.drop conn,⟨h.inSync.backed,h.inSync.rowsShown,h.inSync.importedShown,
    h.inSync.verified,h.inSync.active⟩,h.past,fun t ht => h.txs t (hmem t ht),
    fun t ht => h.idle t (hmem t ht),fun t ht => h.recent t (hmem t ht),
    fun t ht => h.knows t (hmem t ht)⟩

theorem Tracked.begin (h : Tracked s asOf) {conn : ℕ} (hno : findTx s conn=none)
    (request : Request) : Tracked (beginTx s conn request) asOf := by
  have hcas : ∀ t∈(beginTx s conn request).txs, t∈s.txs∨t =
      ⟨conn,request,s.clock,s.nextId,none,[],none,none,firstPhase request⟩ := by
    intro t ht
    rcases mem_append.mp ht with hold|hnew
    · exact .inl hold
    · exact .inr (mem_singleton.mp hnew)
  refine ⟨h.sound.begin hno request,⟨h.inSync.backed,h.inSync.rowsShown,
    h.inSync.importedShown,h.inSync.verified,h.inSync.active⟩,h.past,fun t ht => ?_,
    fun t ht hno => ?_,fun t ht hver => ?_,fun t ht hver => ?_⟩
  · rcases hcas t ht with hold|rfl
    · exact h.txs t hold
    · exact ⟨nofun,le_refl _⟩
  · rcases hcas t ht with hold|rfl
    · exact h.idle t hold hno
    · exact ⟨rfl,rfl,rfl⟩
  · rcases hcas t ht with hold|rfl
    · exact h.recent t hold hver
    · cases hver
  · rcases hcas t ht with hold|rfl
    · exact h.knows t hold hver
    · cases hver

/-- The first statement of a transaction finds the customer tracked. -/
theorem Tracked.started (h : Tracked s asOf) (conn : ℕ) : Tracked (started s conn) asOf := by
  refine ⟨h.sound.started conn,⟨h.inSync.backed,h.inSync.rowsShown,h.inSync.importedShown,
    h.inSync.verified,h.inSync.active⟩,h.past,fun t ht => ?_,fun t ht hno => ?_,fun t ht hver => ?_,
    fun t ht hver => ?_⟩
  · rcases mem_started ht with hold|⟨old,-,-,rfl⟩
    · exact h.txs t hold
    · exact ⟨fun v hv => (Option.some.inj hv).ge,le_refl _⟩
  · rcases mem_started ht with hold|⟨old,-,-,rfl⟩
    · exact h.idle t hold hno
    · cases hno
  · rcases mem_started ht with hold|⟨old,-,-,rfl⟩
    · exact h.recent t hold hver
    · exact h.past
  · rcases mem_started ht with hold|⟨old,hold,hno,rfl⟩
    · exact h.knows t hold hver
    · obtain ⟨hrs,hent,hph⟩ := h.idle old hold hno
      exact knows_idle hrs hent hph

theorem Tracked.moved (h : Tracked s asOf) (ht : t∈s.txs) (hbeg : t.version≠none)
    (hmv : Statement s t t') : Tracked (putTx s t') asOf := by
  obtain ⟨-,-,hnow,-,hver⟩ := hmv.same
  refine ⟨h.sound.moved ht hmv,⟨h.inSync.backed,h.inSync.rowsShown,h.inSync.importedShown,
    h.inSync.verified,h.inSync.active⟩,h.past,fun x hx => ?_,fun x hx hno => ?_,fun x hx hcur => ?_,
    fun x hx hcur => ?_⟩
  · rcases mem_putTx hx with rfl|⟨hold,-⟩
    · rw [hnow,hver]
      exact h.txs t ht
    · exact h.txs x hold
  · rcases mem_putTx hx with rfl|⟨hold,-⟩
    · exact absurd (hver ▸ hno) hbeg
    · exact h.idle x hold hno
  · rcases mem_putTx hx with rfl|⟨hold,-⟩
    · rw [hnow]
      exact h.recent t ht (hver ▸ hcur)
    · exact h.recent x hold hcur
  · rcases mem_putTx hx with rfl|⟨hold,-⟩
    · have hkno := h.knows t ht (hver ▸ hcur)
      exact knows_statement (s := s) hmv h.sound (h.sound.txs t ht) hkno
    · exact h.knows x hold hcur

theorem active_finished (htx : TxSound s t) (hfin : t.phase=.finished) :
    t.active=t.entries.map categories := by
  have hsh := htx.shape
  unfold Shape at hsh
  rw [hfin] at hsh
  exact hsh.1

section
variable (h : Tracked s asOf) (ht : t∈s.txs) (hfin : t.phase=.finished)
include h ht hfin

/-- A finished transaction that rewrote the customer and was not overtaken left the
categories of what it saw. -/
theorem Tracked.rebuilt (hver : t.version=some s.version) (hent : t.entries=some new) :
    Cleaned s.rows t∧Rebuilt s.rows s.entries t new := by
  have hpro := (h.knows t ht hver).progress
  unfold Progress at hpro
  rw [hfin] at hpro
  exact hpro.2 new hent

theorem Tracked.commit_none (hno : t.entries=none) : Tracked (commitTx s t) asOf := by
  have htx := h.sound.txs t ht
  have hset := sameSettled_seen h.sound htx hfin hno
  have hact : t.active=none := by rw [active_finished htx hfin,hno]; rfl
  have hver : (commitTx s t).version=s.version := by simp [commitTx,hno]
  have hent : (commitTx s t).entries=s.entries := by simp [commitTx,hno]
  have hmem : ∀ x∈(commitTx s t).txs, x∈s.txs := fun x hx => (mem_deleteWhere.mp hx).1
  refine ⟨h.sound.commit ht,?_,h.past,fun x hx => ?_,fun x hx => h.idle x (hmem x hx),
    fun x hx hcur => ?_, fun x hx hcur => ?_⟩
  · exact h.inSync.settled hset hent (by simp [commitTx,hact]) (by simp [commitTx,hno])
  · rw [hver]
    exact h.txs x (hmem x hx)
  · exact h.recent x (hmem x hx) (hver ▸ hcur)
  · rw [hent]
    have hx' := h.sound.txs x (hmem x hx)
    exact (h.knows x (hmem x hx) (hver ▸ hcur)).settled hset hx'

/-- A rewrite that nobody overtook is tracked. -/
theorem Tracked.commit_some (hver : t.version=some s.version) (hent : t.entries=some new) : Tracked (commitTx s t) t.now := by
  have htx := h.sound.txs t ht
  have hact : t.active=some (categories new) := by
    rw [active_finished htx hfin,hent]
    rfl
  have hver' : (commitTx s t).version=s.version+1 := by simp [commitTx,hent]
  have hove : ∀ x∈(commitTx s t).txs, x∈s.txs∧∀ v, x.version=some v→v<(commitTx s t).version := by
    intro x hx
    have hmem := (mem_deleteWhere.mp hx).1
    refine ⟨hmem,fun v hv => ?_⟩
    have hle := (h.txs x hmem).1 v hv
    omega
  refine ⟨h.sound.commit ht,?_,(h.txs t ht).2,fun x hx => ?_,
    fun x hx => h.idle x (hove x hx).1,fun x hx hcur => ?_,fun x hx hcur => ?_⟩
  · exact h.inSync.rewrite h.sound ht hent hact (h.knows t ht hver)
      (h.rebuilt ht hfin hver hent).2 (h.recent t ht hver)
  · exact ⟨fun v hv => ((hove x hx).2 v hv).le,(h.txs x (hove x hx).1).2⟩
  · exact absurd rfl ((hove x hx).2 _ hcur).ne
  · exact absurd rfl ((hove x hx).2 _ hcur).ne

end

theorem committed_commit {conn : ℕ} (hfd : findTx s conn=some t) (hfin : t.phase=.finished) :
    committed (perform step s (.commit conn))=some t := by
  have hres : (step s (.commit conn)).1=.done := by simp only [step,hfd,if_pos hfin]
  simp only [committed,perform,hres,if_true,hfd]

theorem committed_eq_some {a : Action} (h : committed (perform step s a)=some t) :
    t∈s.txs∧t.phase=.finished∧(step s a).2=commitTx s t := by
  cases a with
  | commit conn =>
    change (if (perform step s (.commit conn)).result=.done
      then findTx s conn else none)=some t at h
    by_cases hdn : (perform step s (.commit conn)).result=.done
    · rw [if_pos hdn] at h
      obtain ⟨hmem,-⟩ := findTx_eq_some h
      by_cases hfin : t.phase=.finished
      · refine ⟨hmem,hfin,?_⟩
        simp only [step,h,if_pos hfin]
      have href : (step s (.commit conn)).1=.refused := by
        simp only [step,h,if_neg hfin]
      change (step s (.commit conn)).1=.done at hdn
      rw [href] at hdn
      cases hdn
    · rw [if_neg hdn] at h
      cases h
  | _ => cases h

/-- A step that commits nothing leaves the categories alone. -/
theorem active_of_committed_none {a : Action} (h : committed (perform step s a)=none) :
    (step s a).2.active=s.active := by
  have hst := step_spec s a
  generalize (step s a).2=next at hst ⊢
  cases hst with
  | commit hfd _ hfin =>
    rw [committed_commit hfd hfin] at h
    cases h
  | _ => rfl

theorem Tracked.step (h : Tracked s asOf) (a : Action) (hser : Serial (perform step s a)) :
    ∃ asOf', Tracked (VerificationService.step s a).2 asOf' := by
  have hst := step_spec s a
  generalize (VerificationService.step s a).2=next at hst ⊢
  cases hst with
  | same => exact ⟨asOf,h⟩
  | begin request hno => exact ⟨asOf,h.begin hno request⟩
  | wait conn => exact ⟨asOf,h.started conn⟩
  | fail conn => exact ⟨asOf,(h.started conn).drop conn⟩
  | move ht hcon hmv => exact ⟨asOf,(h.started _).moved ht (version_started ht hcon) hmv⟩
  | @commit _ t hfd ht hfin =>
    unfold Serial at hser
    rw [committed_commit hfd hfin] at hser
    cases hent : t.entries with
    | none => exact ⟨asOf,h.commit_none ht hfin hent⟩
    | some => exact ⟨t.now,h.commit_some ht hfin (hser (by rw [hent]; rfl)) hent⟩
  | abort conn => exact ⟨asOf,h.drop conn⟩
  | tick span =>
    refine ⟨asOf,h.sound.step (.tick span),⟨h.inSync.backed,h.inSync.rowsShown,
      h.inSync.importedShown,h.inSync.verified,h.inSync.active⟩,
      h.past.trans (Nat.le_add_right _ _),
      fun t ht => ⟨(h.txs t ht).1,(h.txs t ht).2.trans (Nat.le_add_right _ _)⟩,h.idle,h.recent,
      h.knows⟩

theorem mem_active_rebuilt
    (hact : t.active=some (categories new)) (hreb : Rebuilt s.rows s.entries t new)
    (h : c∈(commitTx s t).active) :
    (∃ e∈s.entries, strikes t.request c=false∧isLegacy (seen s t) t.now e=true∧e.category=c) ∨
      ∃ r∈seen s t, isGranting t.now r=true∧r.category=c := by
  have hact' : (commitTx s t).active=categories new := by simp [commitTx,hact]
  rw [hact'] at h
  unfold categories at h
  rw [mem_eraseDups,mem_map] at h
  obtain ⟨e,he,rfl⟩ := h
  rcases (hreb e).mp he with ⟨hold,hkp,hleg⟩|⟨r,hr,hgra,rfl⟩
  · exact .inl ⟨e,hold,hkp,hleg,rfl⟩
  · exact .inr ⟨r,hr,hgra,rfl⟩

/-- Rewriting leaves no category that is taken back. -/
theorem Tracked.struck (h : Tracked s asOf) (ht : t∈s.txs) (hfin : t.phase=.finished)
    (hver : t.version=some s.version) (hent : t.entries=some new) (hstr : strikes t.request c=true) :
    c∉(commitTx s t).active := by
  intro hmem
  have htx := h.sound.txs t ht
  have hact : t.active=some (categories new) := by
    rw [active_finished htx hfin,hent]
    rfl
  obtain ⟨hcle,hreb⟩ := h.rebuilt ht hfin hver hent
  rcases mem_active_rebuilt hact hreb hmem with ⟨e,-,hkp,-⟩|⟨r,hr,hgra,rfl⟩
  · rw [hkp] at hstr
    cases hstr
  · simp only [isGranting,Bool.and_eq_true,decide_eq_true_eq] at hgra
    rw [hcle r hr hgra.1.1] at hstr
    cases hstr

/-- Without a grant no rewrite brings a category. -/
theorem Tracked.absent (h : Tracked s asOf) (ht : t∈s.txs) (hfin : t.phase=.finished)
    (hver : t.entries.isSome=true→t.version=some s.version)
    (hgran : grants t.request c=false) (habs : c∉s.active) : c∉(commitTx s t).active := by
  intro hmem
  have htx := h.sound.txs t ht
  cases hent : t.entries with
  | none =>
    have hact : (commitTx s t).active=s.active := by simp [commitTx,active_finished htx hfin,hent]
    exact habs (hact ▸ hmem)
  | some new =>
    have hver := hver (by rw [hent]; rfl)
    have hact : t.active=some (categories new) := by
      rw [active_finished htx hfin,hent]
      rfl
    obtain ⟨-,hreb⟩ := h.rebuilt ht hfin hver hent
    rcases mem_active_rebuilt hact hreb hmem with
      ⟨e,he,-,hleg,rfl⟩|⟨r,hr,hgra,rfl⟩
    · simp only [isLegacy,Bool.and_eq_true,decide_eq_true_eq] at hleg
      exact habs ((h.inSync.active _).mpr ⟨e,he,⟨hleg.1.2,hleg.2⟩,rfl⟩)
    simp only [isGranting,Bool.and_eq_true,decide_eq_true_eq] at hgra
    obtain ⟨⟨hsuc,hcat⟩,hlv⟩ := hgra
    rcases (mem_overlay htx.ids).mp hr with hown|⟨hsto,-⟩
    · rw [(htx.granted r hown hsuc).2] at hgran
      cases hgran
    rcases h.inSync.rowsShown r hsto hsuc hcat with hsho|hlap
    · exact habs ((h.inSync.active _).mpr ⟨entryOf r,hsho,⟨rfl,hcat⟩,rfl⟩)
    · rw [isLive_antitone (h.recent t ht hver) hlv] at hlap
      cases hlap

theorem InSync.exact (h : InSync s asOf) {now : ℕ} (hle : asOf≤now)
    (hlv : ∀ e∈s.entries, Counts e→isLive e.expiresAt now=true) (c : String) :
    c∈s.active ↔ Valid s now c := by
  rw [h.active]
  constructor
  · rintro ⟨e,he,hcou,rfl⟩
    have hlas := hlv e he hcou
    rcases h.backed e he hcou with ⟨-,hcat,r,hr,hsuc,rfl⟩|⟨hno,himp⟩
    · exact .inl ⟨r,hr,hsuc,rfl,hcat,hlas⟩
    · exact .inr ⟨e,himp,rfl,hno,hlas⟩
  · rintro (⟨r,hr,hsuc,rfl,hcat,hlas⟩|⟨e,he,rfl,hno,hlas⟩)
    · rcases h.rowsShown r hr hsuc hcat with hsho|hlap
      · exact ⟨entryOf r,hsho,⟨rfl,hcat⟩,rfl⟩
      · rw [isLive_antitone hle hlas] at hlap
        cases hlap
    · rcases h.importedShown e he hno with hsho|hlap
      · exact ⟨e,hsho,h.verified e he,rfl⟩
      · rw [isLive_antitone hle hlas] at hlap
        cases hlap

theorem Tracked.swept (h : Tracked s asOf) (ht : t∈s.txs) (hfin : t.phase=.finished)
    (hswe : t.request=.sweep) (hver : t.version=some s.version) (hnot : Notices s t.now)
    (c : String) : c∈(commitTx s t).active ↔ Valid (commitTx s t) t.now c := by
  cases hent : t.entries with
  | some new =>
    have hsyn := (h.commit_some ht hfin hver hent).inSync
    refine hsyn.exact (le_refl _) (fun e he _ => ?_) c
    have hent' : (commitTx s t).entries=new := by simp [commitTx,hent]
    rw [hent'] at he
    rcases ((h.rebuilt ht hfin hver hent).2 e).mp he with
      ⟨-,-,hleg⟩|⟨r,-,hgra,rfl⟩
    · simp only [isLegacy,Bool.and_eq_true] at hleg
      exact hleg.1.1.2
    · exact ((Bool.and_eq_true _ _).mp hgra).2
  | none =>
    have hsyn := (h.commit_none ht hfin hent).inSync
    refine hsyn.exact (h.recent t ht hver) (fun e he hcou => ?_) c
    have hent' : (commitTx s t).entries=s.entries := by simp [commitTx,hent]
    rw [hent'] at he
    have hpro := (h.knows t ht hver).progress
    unfold Progress at hpro
    rw [hfin] at hpro
    have hfre := hpro.1 hent hswe
    rcases hnot with ⟨r,hr,hsta⟩|⟨hleg,hnow⟩
    · rw [hfre r hr] at hsta
      cases hsta
    rcases h.inSync.backed e he hcou with ⟨-,-,r,hr,hsuc,rfl⟩|⟨hno,-⟩
    · have hsta := hfre r hr
      change isLive r.expiresAt t.now=true
      cases hexp : r.expiresAt with
      | none => rfl
      | some lapse =>
        simp only [isStale,hsuc,hexp,decide_true,Bool.true_and,Option.any_some,
          decide_eq_false_iff_not] at hsta
        have hot : lapse≠t.now := fun heq => hnow r hr hsuc (by rw [hexp,heq])
        exact decide_eq_true (by omega)
    · exact hleg e he hno

/-- No outcome overwrites a row settled since it was selected. -/
def Unspoilt (h : History) : Prop := ∀ e∈h, Undisturbed e.before e.action

section
variable {start : Store} (hstart : Opening start) {h : History}
  (hrun : Run step (fun _ _ _ => True) start h s)
include hrun

/-- A transaction that a step committed was finished, and its writes are visible. -/
theorem committed_run {h₁ h₂ : History} {e : Event Store Action Answer} (hspl : h=h₁++e::h₂)
    (hcom : committed e=some t) : t∈e.before.txs∧t.phase=.finished∧e.after=commitTx e.before t := by
  obtain ⟨-,-,heve⟩ := (hspl ▸ hrun).split
  rw [heve] at hcom ⊢
  exact committed_eq_some hcom

include hstart

theorem sound_run : Sound s :=
  hrun.state_invariant hstart.tracked.sound fun _ _ a hs _ => hs.step a

theorem apart_run (hun : Unspoilt h) : Apart s := by
  have hbeg : Apart start := fun t ht => by
    rw [hstart.txs] at ht
    cases ht
  refine (hrun.invariant (P := fun h s => Sound s∧(Unspoilt h → Apart s))
    ⟨hstart.tracked.sound,fun _ => hbeg⟩ (fun h s a hs _ => ⟨hs.1.step a,fun hall => ?_⟩)).2 hun
  exact (hs.2 fun e he => hall e (mem_append_left _ he)).step hs.1 a (hall _ mem_concat_self)

theorem tracked_run (hser : ∀ e∈h, Serial e) : ∃ asOf, Tracked s asOf := by
  refine hrun.invariant (P := fun h s => (∀ e∈h, Serial e)→∃ asOf, Tracked s asOf)
    (fun _ => ⟨_,hstart.tracked⟩) (fun h s a hs _ hall => ?_) hser
  obtain ⟨asOf,hs⟩ := hs fun e he => hall e (mem_append_left _ he)
  exact hs.step a (hall _ mem_concat_self)

end

/-- As long as no outcome overwrites a settled row, a redelivered report changes
nothing. While no rewrite of the customer overtakes another one, a sweep that notices
what has lapsed leaves exactly the valid categories, a category that is taken back is
gone, and stays away until it is granted again. -/
theorem eligibility_is_verifications {start : Store} (hstart : Opening start) {h : History}
    (hrun : Run step (fun _ _ _ => True) start h s) :
    (Unspoilt h→∀ e∈h, ∀ t d, committed e=some t→t.request=.webhook d →
      (∃ r∈e.before.rows, r.verificationId=d.verificationId) →
      e.after.rows=e.before.rows∧e.after.entries=e.before.entries ∧
        e.after.active=e.before.active)∧((∀ e∈h, Serial e) →
      (∀ e∈h, ∀ t, committed e=some t→t.request=.sweep→t.version=some e.before.version →
        Notices e.before t.now→∀ c, c∈e.after.active ↔ Valid e.after t.now c) ∧
      (∀ e∈h, ∀ t c, committed e=some t→strikes t.request c=true →
        (∀ d, t.request=.webhook d→t.entries.isSome=true)→c∉e.after.active) ∧
      (∀ h₁ e h₂ c, h=h₁++e::h₂→c∉e.after.active →
        (∀ later∈h₂, ∀ t, committed later=some t → grants t.request c=false) → c∉s.active)) := by
  refine ⟨fun hun e he t d hcom hreq hsto => ?_,fun hser => ?_⟩
  · obtain ⟨h₁,h₂,hspl⟩ := append_of_mem he
    obtain ⟨ht,hfin,haft⟩ := committed_run hrun hspl hcom
    have hpa := (hspl ▸ hrun).split.1
    have hap := apart_run hstart hpa fun old hold => hun old (hspl ▸ mem_append_left _ hold)
    rw [haft]
    exact hap.redelivered (sound_run hstart hpa) ht hreq hfin hsto
  have htra : ∀ h₁ e h₂, h=h₁++e::h₂→∃ asOf, Tracked e.before asOf := fun h₁ e h₂ hspl =>
    tracked_run hstart (hspl ▸ hrun).split.1 fun old hold => hser old (hspl ▸ mem_append_left _ hold)
  have hver : ∀ e∈h, ∀ t, committed e=some t→t.entries.isSome=true →
      t.version=some e.before.version := by
    intro e he t hcom hso
    have hser' := hser e he
    unfold Serial at hser'
    rw [hcom] at hser'
    exact hser' hso
  refine ⟨fun e he t hcom hswe hcur hnot c => ?_,
    fun e he t c hcom hstr hweb => ?_,fun h₁ e h₂ c hspl habs hgra => ?_⟩
  · obtain ⟨h₁,h₂,hspl⟩ := append_of_mem he
    obtain ⟨asOf,htra⟩ := htra h₁ e h₂ hspl
    obtain ⟨ht,hfin,haft⟩ := committed_run hrun hspl hcom
    rw [haft]
    exact htra.swept ht hfin hswe hcur hnot c
  · obtain ⟨h₁,h₂,hspl⟩ := append_of_mem he
    obtain ⟨asOf,htra⟩ := htra h₁ e h₂ hspl
    have hcur := hver e he t hcom
    obtain ⟨ht,hfin,haft⟩ := committed_run hrun hspl hcom
    rw [haft]
    cases hent : t.entries with
    | some => exact htra.struck ht hfin (hcur (by rw [hent]; rfl)) hent hstr
    | none =>
      have hsh := (htra.sound.txs t ht).shape
      unfold Shape at hsh
      rw [hfin] at hsh
      rcases hsh.2.1 hent with ⟨-,hswe|⟨d,hd⟩⟩|⟨hreq,-⟩
      · rw [hswe] at hstr
        cases hstr
      · have hso := hweb d hd
        rw [hent] at hso
        cases hso
      · rw [hreq] at hstr
        cases hstr
  · subst hspl
    have hz : ∃ asOf, Tracked e.after asOf∧c∉e.after.active := by
      obtain ⟨asOf,hbef⟩ := htra h₁ e h₂ rfl
      have heve := hrun.split.2.2
      have hser' := hser e (mem_append_right _ mem_cons_self)
      rw [heve] at habs hser' ⊢
      obtain ⟨asOf',haft⟩ := hbef.step e.action hser'
      exact ⟨asOf',haft,habs⟩
    have hstep : ∀ s a, (∃ asOf, Tracked s asOf∧c∉s.active) →
        perform step s a∈h₂ →
        ∃ asOf, Tracked (step s a).2 asOf ∧
          c∉(step s a).2.active := by
      rintro s a ⟨asOf,htra,habs⟩ hmem
      have hlat : perform step s a∈h₁++e::h₂ :=
        mem_append_right _ (mem_cons_of_mem _ hmem)
      obtain ⟨asOf',haft⟩ := htra.step a (hser _ hlat)
      refine ⟨asOf',haft,?_⟩
      cases hcom : committed (perform step s a) with
      | none =>
        rw [active_of_committed_none hcom]
        exact habs
      | some t =>
        obtain ⟨ht,hfin,hend⟩ := committed_eq_some hcom
        rw [hend]
        exact htra.absent ht hfin (hver _ hlat t hcom) (hgra _ hmem t hcom) habs
    obtain ⟨⟨-,-,hgn⟩,-⟩ := hrun.afterwards (P := fun s => ∃ asOf, Tracked s asOf∧c∉s.active) hz
      fun _ s a hs _ hmem => hstep s a hs hmem
    exact hgn

/-- A customer without verifications. -/
def bare : Store := ⟨[],[],[],0,0,[],0,[]⟩

/-- A customer with an imported entry that lapses. -/
def lapsing : Store :=
  ⟨[],[⟨"student", "",true,some 5⟩],["student"],0,0,[],0,[⟨"student", "",true,some 5⟩]⟩

/-- A report of success. -/
def success (verificationId category : String) : Request :=
  .webhook ⟨verificationId, "success",category,100⟩

/-- Two reports rebuild the categories before either commits, then the sweep runs. -/
def overlapping : List Action :=
  [.begin 1 (success "v1" "military"),.begin 2 (success "v2" "teacher"),
    .next 1,.next 1,.next 1,.next 1,.next 1,.next 2,.next 2,.next 2,.next 2,.next 2,
    .next 1,.commit 1,.next 2,.commit 2,.begin 3 .sweep,.next 3,.next 3,.commit 3]

/-- Two reports select the same pending row; the second one overwrites the first. -/
def overwriting : List Action :=
  [.begin 0 .start,.next 0,.commit 0,
    .begin 1 (success "v1" "military"),.begin 2 (success "v2" "teacher"),
    .next 1,.next 1,.next 2,.next 2,.next 1,.next 1,.next 1,.next 1,.commit 1,
    .next 2,.next 2,.next 2,.next 2,.commit 2]

/-- The first of these reports comes again. -/
def again : List Action :=
  [.begin 3 (success "v1" "military"),.next 3,.next 3,.next 3,.next 3,.next 3,.next 3,.commit 3]

/-- The imported entry lapses, then the sweep runs. -/
def lapsed : List Action := [.tick 10,.begin 1 .sweep,.next 1,.next 1,.commit 1]

/-- The same reports one after the other, a revocation, a lapse and the sweep. -/
def serial : List Action :=
  [.begin 1 (success "v1" "military"),.next 1,.next 1,.next 1,.next 1,.next 1,.next 1,.commit 1,
    .begin 2 (success "v2" "teacher"),.next 2,.next 2,.next 2,.next 2,.next 2,.next 2,.commit 2,
    .begin 3 (.revoke "military"),.next 3,.next 3,.next 3,.next 3,.next 3,.next 3,.next 3,.commit 3,
    .tick 200,.begin 4 .sweep,.next 4,.next 4,.next 4,.next 4,.next 4,.commit 4]

theorem bare_opening : Opening bare := ⟨rfl,rfl,fun e => (by simp [bare]),fun c => (by simp [bare])⟩

theorem lapsing_opening : Opening lapsing := by
  refine ⟨rfl,rfl,fun e => ?_,fun c => (by simp [lapsing,eq_comm])⟩
  simp only [lapsing,mem_singleton]
  exact ⟨fun h => ⟨h,h ▸ ⟨rfl,by decide⟩⟩,And.left⟩

/-- After two overlapping reports one category is missing although its row is verified,
and a lapsed imported entry keeps its category, with every transaction committed and
the sweep past. A report whose row was overwritten is written again when it is
redelivered. -/
theorem eligibility_differs : (Opening bare∧(play step [] bare overlapping).2.txs=[] ∧
      Valid (play step [] bare overlapping).2 0 "military" ∧
      "military" ∉ (play step [] bare overlapping).2.active) ∧
    (Opening lapsing∧(play step [] lapsing lapsed).2.txs=[] ∧
      ¬ Valid (play step [] lapsing lapsed).2 10 "student" ∧
      "student" ∈ (play step [] lapsing lapsed).2.active) ∧
    ((play step [] bare overwriting).2.txs=[] ∧
      ((play step [] bare overwriting).1.any fun e => (committed e).any fun t =>
        decide (t.request=success "v1" "military"))=true ∧
      (play step [] bare overwriting).2.rows.map Verification.verificationId=["v2"] ∧
      (play step [] bare (overwriting++again)).2.rows.map Verification.verificationId =
        ["v2", "v1"]) :=
  ⟨⟨bare_opening,by decide,by decide,by decide⟩,⟨lapsing_opening,by decide,by decide,by decide⟩,
    by decide,by decide,by decide,by decide⟩

/-- In a serial run the sweep commits and the statement holds of it. -/
theorem eligibility_is_verifications_serial :
    ((play step [] bare serial).1.any fun e => (committed e).any fun t =>
      decide (t.request=.sweep)&&decide (t.version=some e.before.version) &&
        decide (Notices e.before t.now))=true ∧
    ∀ e∈(play step [] bare serial).1, ∀ t, committed e=some t→t.request=.sweep →
      t.version=some e.before.version → Notices e.before t.now →
      ∀ c, c∈e.after.active ↔ Valid e.after t.now c :=
  ⟨by decide,((eligibility_is_verifications bare_opening
    (.play Run.nil serial (by repeat' constructor))).2 (by decide)).1⟩

end SellRight.VerificationEligibility
