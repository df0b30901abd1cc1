import SellRight.CreditFundingPosting

/-!
# Planner calls continue the ledger

The vectors of a planner agree with the restorations posted so far, up to the
order of returned indexes. An edit plan walks the lines and posts at most one
restoration for each cause of each line; an explicit return posts one. Every
posting continues the ledger, and the state a planner returns is the state of
the longer ledger.
-/

namespace SellRight.CreditFundingPlans

open List

open JsonStable KeyedRecord CreditMath CreditFundingLedger CreditFundingPlanner CreditFundingEnvelope
  CreditFundingChains CreditFundingPosting
open FallibleSteps (bind_eq_ok)

/-- Planner vectors that agree with restorations, up to the order of the
returned indexes. -/
structure Agrees (original : Allocation) (restorations : List Restoration)
    (vectors : Vectors) : Prop where
  remaining : vectors.remaining=remainingOf (edgesOf restorations) original
  lines : keys vectors.returnedIndexes.entries=keys original.entries
  returned : ∀ line units, original.get line=some units→∃ indexes,
    vectors.returnedIndexes.get line=some indexes ∧
      indexes.Perm (settledReturned (edgesOf restorations) line units.length)

variable {line editId : String} {redemption : CreditTransaction} {restoration : Restoration}
  {restorations : List Restoration} {lines : List TargetLine}

section Agreement

variable {original : Allocation} {vectors : Vectors}

theorem Agrees.read (original : Allocation) (restorations : List Restoration) :
    Agrees original restorations
      ⟨remainingOf (edgesOf restorations) original,returnedIn (edgesOf restorations) original⟩ where
  remaining := rfl
  lines := by simp [returnedIn]
  returned := by
    intro line units hun
    exact ⟨_,by rw [returnedIn,Record.get_mapValues,hun,Option.map_some],.refl _⟩

theorem Agrees.post (hagr : Agrees original restorations vectors)
    (hcon : Continues original restorations restoration) :
    Agrees original (restorations++[restoration])
      (applyChanges vectors restoration.line restoration.quantityReturn restoration.units) where
  remaining := by
    rw [remainingOf_post hcon,← hagr.remaining]
    rfl
  lines := by
    rw [applyChanges]
    cases restoration.quantityReturn <;> simp [hagr.lines]
  returned := by
    intro line units hun
    obtain ⟨indexes,hind,hper⟩ := hagr.returned line units hun
    have hps := settledReturned_post hcon hun
    cases hret : restoration.quantityReturn with
    | false =>
      refine ⟨indexes,by simpa [applyChanges,hret] using hind,?_⟩
      rw [hret,if_neg (by simp),append_nil] at hps
      exact hper.trans hps.symm
    | true =>
      by_cases hln : line=restoration.line
      · refine ⟨indexes++restoration.units.map UnitChange.index,?_,?_⟩
        · simp [applyChanges,Record.get_update,← hln,hind]
        · rw [if_pos ⟨hln,hret⟩] at hps
          exact (hper.append_right _).trans hps.symm
      · refine ⟨indexes,?_,?_⟩
        · simp [applyChanges,Record.get_update,hln,hind]
        · rw [if_neg fun hbo => hln hbo.1,append_nil] at hps
          exact hper.trans hps.symm

variable {transitions : List ((String×ℕ)×UnitEdge)}

theorem sort_returned {n : ℕ}
    {indexes : List ℕ} (hper : indexes.Perm (settledReturned transitions line n)) :
    indexes.insertionSort (· ≤ ·)=settledReturned transitions line n := by
  have hsorted : (settledReturned transitions line n).Pairwise (· ≤ ·) :=
    pairwise_le_range.filter _
  have hsor : (indexes.insertionSort (· ≤ ·)).Pairwise (· ≤ ·) := pairwise_insertionSort _ _
  exact List.Perm.eq_of_pairwise (fun a b _ _ hab hba => Nat.le_antisymm hab hba) hsor hsorted
    ((perm_insertionSort _ _).trans hper)

theorem Agrees.sort (hagr : Agrees original restorations vectors) :
    sortIndexes vectors.returnedIndexes=returnedIn (edgesOf restorations) original := by
  refine Record.eq_of_get (by simp [sortIndexes,returnedIn,hagr.lines]) ?_
  intro line hln
  have hkn : line∈keys original.entries := by simpa [sortIndexes,hagr.lines] using hln
  obtain ⟨units,hun⟩ := Record.get_isSome hkn
  obtain ⟨indexes,hind,hper⟩ := hagr.returned line units hun
  rw [sortIndexes,Record.get_mapValues,hind,Option.map_some,returnedIn,
    Record.get_mapValues,hun,Option.map_some,sort_returned hper]

/-- Cents left on a line. -/
theorem Agrees.units (hagr : Agrees original restorations vectors)
    {units : List Int} (hun : original.get line=some units) : vectors.remaining.get line =
      some (settledUnits (edgesOf restorations) line units units.length) := by
  rw [hagr.remaining,remainingOf,Record.get_mapValues,hun,Option.map_some]

theorem open_of_not_mem {n index : ℕ}
    (hind : index<n) (hop : index∉settledReturned transitions line n) :
    returnedOf (chainOf transitions line index)=false := by
  by_contra hbk
  apply hop
  rw [settledReturned,mem_filter]
  exact ⟨mem_range.mpr hind,by simpa using hbk⟩

theorem settled_range (hsd : Sound redemption original restorations) {units : List Int}
    (hun : original.get line=some units) {index : ℕ} {cents : Int}
    (hcen : (settledUnits (edgesOf restorations) line units units.length)[index]?=some cents) :
    index<units.length∧0≤cents∧cents ≤ maxCreditCents := by
  obtain ⟨hlt,hval⟩ := List.getElem?_eq_some_iff.mp hcen
  have hind : index<units.length := by simpa [settledUnits] using hlt
  have hord := hsd.chains line units hun index hind
  have hcur : cents=currentOf units[index] (chainOf (edgesOf restorations) line index) := by
    simpa [settledUnits,hind] using hval.symm
  exact ⟨hind,hcur ▸ hord.range⟩

end Agreement

section Keys

theorem uuid_length {text : String} (htex : isUuid text=true) : text.toList.length=36 := by
  rw [isUuid,Bool.and_eq_true,decide_eq_true_eq] at htex
  exact htex.1

/-- Texts of one length in front of other texts are told apart. -/
theorem append_text_inj {first second rest more : String}
    (hlen : first.toList.length=second.toList.length)
    (heq : first++rest=second++more) : first=second∧rest=more := by
  have hlis := congrArg String.toList heq
  rw [String.toList_append,String.toList_append] at hlis
  obtain ⟨hfst,hrt⟩ := append_inj hlis hlen
  exact ⟨String.toList_inj.mp hfst,String.toList_inj.mp hrt⟩

theorem cause_text_inj {first second : Cause} (htex : first.text=second.text) : first=second := by
  cases first <;> cases second <;> first | rfl | exact absurd htex (by decide)

theorem key_edit_inj {other : Restoration} {cause : Cause} {digest : String}
    (hpro : restoration.provenance=.edit cause editId digest)
    (hed : isUuid editId=true) (hln : isUuid restoration.line=true)
    (hot : other.provenance.Valid) (hoth : isUuid other.line=true)
    (hkey : other.key redemption=restoration.key redemption) :
    other.line=restoration.line∧∃ digest', other.provenance=.edit cause editId digest' := by
  have hkey' := congrArg String.toList hkey
  rw [Restoration.key,Restoration.key,hpro] at hkey hkey'
  cases hcas : other.provenance with
  | edit _ _ digest' =>
    rw [hcas] at hot
    simp only [hcas,String.append_assoc] at hkey
    obtain ⟨-,hkey⟩ := append_text_inj rfl hkey
    obtain ⟨hsam,hkey⟩ := append_text_inj ((uuid_length hot.1).trans (uuid_length hed).symm) hkey
    obtain ⟨-,hkey⟩ := append_text_inj rfl hkey
    obtain ⟨-,hkey⟩ := append_text_inj rfl hkey
    obtain ⟨-,hkey⟩ := append_text_inj rfl hkey
    obtain ⟨heq,hkey⟩ := append_text_inj ((uuid_length hoth).trans (uuid_length hln).symm) hkey
    obtain ⟨-,hkey⟩ := append_text_inj rfl hkey
    exact ⟨heq,digest',by rw [cause_text_inj hkey,hsam]⟩
  | operation returned => cases hkd : returned.kind <;> simp [hcas,hkd] at hkey'

end Keys

section Changes

variable {cause : Cause} {units : List Int} {returned : List ℕ} {wanted : List (ℕ×TargetUnit)}

/-- What a planned change says about its unit. -/
theorem changesFor_spec {u : UnitChange} (hu : u∈changesFor cause units returned wanted) :
    units[u.index]?=some u.before∧u.index∉returned∧match cause with
      | .quantityReturn => lookup wanted u.index=none∧u.after=0
      | .unitCorrection => ∃ unit, lookup wanted u.index=some unit ∧
          unit.maximumCredit=u.after∧u.after<u.before := by
  rw [changesFor,mem_filterMap] at hu
  obtain ⟨entry,hent,hcha⟩ := hu
  have huni := mem_zipIdx_iff_getElem?.mp hent
  by_cases hbk : entry.2∈returned
  · rw [if_pos hbk] at hcha
    cases hcha
  rw [if_neg hbk] at hcha
  cases cause with
  | quantityReturn =>
    cases hwan : lookup wanted entry.2 with
    | none =>
      simp only [hwan,Option.some.injEq] at hcha
      subst hcha
      exact ⟨huni,hbk,hwan,rfl⟩
    | some =>
      simp only [hwan] at hcha
      cases hcha
  | unitCorrection =>
    cases hwan : lookup wanted entry.2 with
    | none =>
      simp only [hwan] at hcha
      cases hcha
    | some unit =>
      simp only [hwan] at hcha
      split at hcha
      · next hles =>
        cases hcha
        exact ⟨huni,hbk,unit,hwan,rfl,hles⟩
      · cases hcha

theorem changesFor_distinct :
    ((changesFor cause units returned wanted).map UnitChange.index).Nodup := by
  have hgen : ∀ (entries : List (Int×ℕ)) (f : Int×ℕ → Option UnitChange),
      (∀ entry u, f entry=some u→u.index=entry.2)→(entries.map Prod.snd).Nodup →
      ((entries.filterMap f).map UnitChange.index).Nodup := by
    intro entries f hf hnod
    have hsub : ((entries.filterMap f).map UnitChange.index).Sublist (entries.map Prod.snd) := by
      clear hnod
      induction entries with
      | nil => simp
      | cons entry _ ih =>
        cases hent : f entry with
        | none =>
          rw [filterMap_cons_none hent,map_cons]
          exact ih.cons _
        | some u =>
          rw [filterMap_cons_some hent,map_cons,map_cons,hf entry u hent]
          exact ih.cons_cons _
    exact hnod.sublist hsub
  refine hgen _ _ ?_ ?_
  · intro entry u hu
    split_ifs at hu
    split at hu
    · cases hu
      rfl
    · split at hu
      · cases hu
        rfl
      · cases hu
    · cases hu
  · rw [zipIdx_map_snd]
    exact nodup_range'

end Changes

/-- Vectors and postings that continue sound restorations with new ones. -/
structure Planned (redemption : CreditTransaction) (original : Allocation)
    (old new : List Restoration) (plan : PlanState) : Prop where
  sound : Sound redemption original (old++new)
  agrees : Agrees original (old++new) plan.vectors
  postings : plan.postings=new.map fun restoration => restoration.posting redemption

section Planning

variable {original : Allocation} {digest : String}
  {old new : List Restoration} {plan next : PlanState} {cause : Cause} {returned : List ℕ}
  {wanted : List (ℕ×TargetUnit)}

/-- Restoration planned for one cause of a line. -/
def editRestoration (restorations : List Restoration) (units : List Int) (cause : Cause)
    (editId digest line : String) (returned : List ℕ) (wanted : List (ℕ×TargetUnit)) :
    Restoration where
  provenance := .edit cause editId digest
  line := line
  units := changesFor cause (settledUnits (edgesOf restorations) line units units.length) returned
    wanted

theorem continues_edit {units : List Int}
    (hsd : Sound redemption original restorations) (hun : original.get line=some units)
    (hval : (Provenance.edit cause editId digest).Valid)
    (hmon : ∀ entry∈wanted, 0≤entry.2.maximumCredit)
    (hed : restoration=editRestoration restorations units cause editId digest line returned wanted)
    (hop : ∀ u∈restoration.units, u.index∉settledReturned (edgesOf restorations) line units.length)
    (hnon : restoration.units≠[]) (htot : restoration.cents.sum ≤ maxCreditCents) :
    Continues original restorations restoration := by
  subst hed
  have hran : ∀ u∈(editRestoration restorations units cause editId digest line returned
      wanted).units, u.index<units.length∧0≤u.before∧u.before ≤ maxCreditCents :=
    fun u hu => settled_range hsd hun (changesFor_spec hu).1
  have haft : ∀ u∈(editRestoration restorations units cause editId digest line returned
      wanted).units, 0≤u.after∧u.after≤u.before ∧
        if cause=.quantityReturn then u.after=0 else u.after<u.before := by
    intro u hu
    have hbou := hran u hu
    obtain ⟨-,-,hcau⟩ := changesFor_spec hu
    cases cause with
    | quantityReturn =>
      obtain ⟨-,hz⟩ := hcau
      exact ⟨by omega,by omega,by rw [if_pos rfl]; exact hz⟩
    | unitCorrection =>
      obtain ⟨unit,hloo,hmax,hles⟩ := hcau
      have hnonn := hmon _ (mem_of_lookup hloo)
      simp only at hnonn
      exact ⟨by omega,by omega,by rw [if_neg (by simp)]; exact hles⟩
  refine ⟨⟨by simp [editRestoration,hun],hval,hnon,?_,changesFor_distinct,?_,?_,htot⟩,?_,?_⟩
  · intro u hu
    rw [editRestoration,hun,Option.getD_some]
    exact (hran u hu).1
  · intro u hu
    exact ⟨(haft u hu).1,(haft u hu).2.1,(hran u hu).2.2⟩
  · intro u hu
    simpa [Restoration.quantityReturn,editRestoration] using (haft u hu).2.2
  · intro u hu
    exact open_of_not_mem (hran u hu).1 (hop u hu)
  · intro others hoth u hu
    have heq : some units=some others := hun.symm.trans hoth
    cases heq
    exact (changesFor_spec hu).1

section
variable (hfac : Redeemed redemption original)
include hfac

theorem edit_key_fresh (hsd : Sound redemption original restorations)
    (hpro : restoration.provenance=.edit cause editId digest)
    (hed : isUuid editId=true) (hln : isUuid restoration.line=true)
    (hown : ∀ other∈restorations, ∀ cause' digest', other.provenance=.edit cause' editId digest' →
        digest'=digest∧¬(cause'=cause∧other.line=restoration.line)) :
    restoration.key redemption∉restorations.map fun r => r.key redemption := by
  intro hmem
  obtain ⟨other,hot,heq⟩ := mem_map.mp hmem
  have hfs := hsd.fits other hot
  obtain ⟨others,hoth⟩ := Option.isSome_iff_exists.mp hfs.line
  obtain ⟨hsam,digest',hcas⟩ := key_edit_inj hpro hed hln hfs.provenance (hfac.line _ _ hoth) heq
  exact (hown other hot cause digest' hcas).2 ⟨rfl,hsam⟩

theorem planCause_planned
    (hpl : planCause redemption editId digest line returned wanted plan cause=.ok next)
    (hpla : Planned redemption original old new plan) {units : List Int}
    (hun : original.get line=some units) (hval : (Provenance.edit cause editId digest).Valid)
    (hmon : ∀ entry∈wanted, 0≤entry.2.maximumCredit)
    (hed : restoration=editRestoration (old++new) units cause editId digest line returned wanted)
    (hop : ∀ u∈restoration.units, u.index∉settledReturned (edgesOf (old++new)) line units.length)
    (hown : ∀ other∈old++new, ∀ cause' digest', other.provenance=.edit cause' editId digest' →
      digest'=digest∧¬(cause'=cause∧other.line=line)) :
    (restoration.units=[]∧next=plan)∨(Continues original (old++new) restoration ∧
        Planned redemption original old (new++[restoration]) next) := by
  have hget : (plan.vectors.remaining.get line).getD [] =
      settledUnits (edgesOf (old++new)) line units units.length := by
    rw [hpla.agrees.units hun,Option.getD_some]
  have hlis : restoration.units=changesFor cause
      (settledUnits (edgesOf (old++new)) line units units.length) returned wanted := by
    rw [hed]
    rfl
  have hpro : restoration.provenance=.edit cause editId digest := by
    rw [hed]
    rfl
  have hln : restoration.line=line := by
    rw [hed]
    rfl
  rw [planCause] at hpl
  simp only [hget,← hlis] at hpl
  split at hpl
  · next hem =>
    exact .inl ⟨by simpa using hem,(Except.ok.inj hpl).symm⟩
  · next hso =>
    rw [bind_eq_ok] at hpl
    obtain ⟨amount,hamo,hpl⟩ := hpl
    obtain ⟨rfl,-,hmax⟩ := sum_eq_ok hamo
    cases hpl
    have hcon := continues_edit hpla.sound hun hval hmon hed hop (by simpa using hso) hmax
    have hkey := edit_key_fresh hfac hpla.sound hpro hval.1
      (hln.symm ▸ hfac.line line units hun) (hln.symm ▸ hown)
    have hdig : ∀ other∈old++new,
        SameDigest other restoration∧SameDigest restoration other := by
      intro other hot
      constructor
      · intro cause' _ editId' digest' digest'' hcas hnew
        rw [hpro] at hnew
        obtain ⟨-,rfl,rfl⟩ := Provenance.edit.inj hnew
        exact (hown other hot cause' digest' hcas).1
      · intro _ cause' editId' digest' digest'' hnew hcas
        rw [hpro] at hnew
        obtain ⟨-,rfl,rfl⟩ := Provenance.edit.inj hnew
        exact (hown other hot cause' digest'' hcas).1.symm
    have hret : restoration.quantityReturn=decide (cause=.quantityReturn) := by
      rw [Restoration.quantityReturn,hpro]
    refine .inr ⟨hcon,?_,?_,?_⟩
    · rw [← append_assoc]
      exact sound_post hpla.sound hcon hkey hdig
    · rw [← append_assoc]
      have hagr := hpla.agrees.post hcon
      rwa [hln,hret] at hagr
    · rw [hpla.postings,map_append]
      simp only [map_cons,map_nil,Restoration.posting,hret,Restoration.envelope,
        Restoration.refundId,hpro,hln,Restoration.cents,decide_eq_true_eq]

theorem planLine_planned
    (hpl : planLine redemption editId digest lines plan line=.ok next)
    (hpla : Planned redemption original old new plan) {units : List Int}
    (hun : original.get line=some units) (hed : isUuid editId=true) (hdig : isDigest digest=true)
    (hmon : ∀ entry∈wantedUnits lines line, 0≤entry.2.maximumCredit)
    (hown : ∀ other∈old++new, ∀ cause' digest', other.provenance=.edit cause' editId digest' →
      digest'=digest∧other.line≠line) : ∃ more, Planned redemption original old (new++more) next ∧
      ∀ restoration∈more, restoration.line=line ∧
        ∃ cause, restoration.provenance=.edit cause editId digest := by
  obtain ⟨indexes,hind,hper⟩ := hpla.agrees.returned line units hun
  rw [planLine,hind,Option.getD_some,bind_eq_ok] at hpl
  obtain ⟨_,-,hpl⟩ := hpl
  simp only [foldlM_cons,foldlM_nil,bind_eq_ok] at hpl
  obtain ⟨middle,hret,last,hcor,hdn⟩ := hpl
  cases hdn
  have hop : ∀ cause, ∀ u∈(editRestoration (old++new) units cause editId digest line indexes
      (wantedUnits lines line)).units,
      u.index∉settledReturned (edgesOf (old++new)) line units.length := by
    intro cause u hu hbk
    exact (changesFor_spec hu).2.1 (hper.mem_iff.mpr hbk)
  have halo : ∀ cause, ∀ other∈old++new, ∀ cause' digest',
      other.provenance=.edit cause' editId digest' →
      digest'=digest∧¬ (cause'=cause∧other.line=line) :=
    fun cause other hot cause' digest' hcas =>
      ⟨(hown other hot cause' digest' hcas).1,
        fun hbo => (hown other hot cause' digest' hcas).2 hbo.2⟩
  have hfst := planCause_planned hfac hret hpla hun ⟨hed,hdig⟩ hmon rfl (hop _) (halo _)
  rcases hfst with ⟨-,rfl⟩|⟨hcon,hmid⟩
  · have hsec := planCause_planned hfac hcor hpla hun ⟨hed,hdig⟩ hmon rfl (hop _) (halo _)
    rcases hsec with ⟨-,rfl⟩|⟨-,hlt⟩
    · exact ⟨[],by simpa using hpla,by simp⟩
    refine ⟨[_],hlt,?_⟩
    intro restoration hres
    rw [mem_singleton.mp hres]
    exact ⟨rfl,_,rfl⟩
  · set taken := editRestoration (old++new) units .quantityReturn editId digest line indexes
      (wantedUnits lines line)
    have hop' : ∀ u∈(editRestoration (old++(new++[taken])) units .unitCorrection editId digest
        line indexes (wantedUnits lines line)).units,
        u.index∉settledReturned (edgesOf (old++(new++[taken]))) line units.length := by
      intro u hu hbk
      obtain ⟨-,hkp,unit,hwan,-⟩ := changesFor_spec hu
      rw [← append_assoc] at hbk
      have hmem := (settledReturned_post hcon hun).mem_iff.mp hbk
      rcases mem_append.mp hmem with hold|hnew
      · exact hkp (hper.mem_iff.mpr hold)
      rw [if_pos ⟨rfl,rfl⟩] at hnew
      obtain ⟨v,hv,heq⟩ := mem_map.mp hnew
      have hno := (changesFor_spec hv).2.2.1
      rw [heq,hwan] at hno
      cases hno
    have hsec := planCause_planned hfac hcor hmid hun ⟨hed,hdig⟩ hmon rfl
      hop' (by
        intro other hot cause' digest' hcas
        rw [← append_assoc] at hot
        rcases mem_append.mp hot with hold|hnew
        · exact halo _ other hold cause' digest' hcas
        · rw [mem_singleton.mp hnew] at hcas
          obtain ⟨rfl,-,rfl⟩ := Provenance.edit.inj hcas
          exact ⟨rfl,fun hbo => by cases hbo.1⟩)
    rcases hsec with ⟨-,rfl⟩|⟨-,hlt⟩
    · refine ⟨[_],hmid,?_⟩
      intro restoration hres
      rw [mem_singleton.mp hres]
      exact ⟨rfl,_,rfl⟩
    · refine ⟨[_,_],by simpa using hlt,?_⟩
      intro restoration hres
      simp only [mem_cons,not_mem_nil,or_false] at hres
      rcases hres with rfl|rfl
      · exact ⟨rfl,_,rfl⟩
      · exact ⟨rfl,_,rfl⟩

end

end Planning

section Requests

variable {remaining : Allocation}

theorem checkTargetUnits_money {units : List TargetUnit}
    {seen : List Int} (hck : checkTargetUnits remaining line units seen=.ok ()) :
    ∀ unit∈units, 0≤unit.maximumCredit := by
  induction units generalizing seen with
  | nil => simp
  | cons _ _ ih =>
    rw [checkTargetUnits,bind_eq_ok] at hck
    obtain ⟨_,hfst,hrt⟩ := hck
    have hfac := requireFact_eq_ok hfst
    rw [Bool.and_eq_true,Bool.and_eq_true,money,decide_eq_true_eq] at hfac
    intro unit huni
    rcases mem_cons.mp huni with rfl|htl
    · exact hfac.1.1.1
    · exact ih hrt unit htl

theorem checkTargetLines_money
    {seen : List String} (hck : checkTargetLines remaining lines seen=.ok ()) :
    ∀ line∈lines, ∀ unit∈line.units, 0≤unit.maximumCredit := by
  induction lines generalizing seen with
  | nil => simp
  | cons _ _ ih =>
    simp only [checkTargetLines,bind_eq_ok] at hck
    obtain ⟨_,-,_,hfst,hrt⟩ := hck
    intro line hln
    rcases mem_cons.mp hln with rfl|htl
    · exact checkTargetUnits_money hfst
    · exact ih hrt line htl

theorem wantedUnits_mem {entry : ℕ×TargetUnit}
    (hent : entry∈wantedUnits lines line) : ∃ target∈lines, entry.2∈target.units := by
  rw [wantedUnits,mem_filterMap] at hent
  obtain ⟨unit,huni,hind⟩ := hent
  cases hfin : lines.find? fun target => decide (target.orderLineId=line) with
  | none => simp [hfin] at huni
  | some target =>
    rw [hfin,Option.map_some,Option.getD_some] at huni
    rw [Option.map_eq_some_iff] at hind
    obtain ⟨index,-,rfl⟩ := hind
    exact ⟨target,mem_of_find?_eq_some hfin,huni⟩

theorem no_own_restoration {posted : List (CreditTransaction×Restoration)}
    (hown : (ownRows (parsedRows redemption posted) editId).isEmpty=true) :
    ∀ restoration∈posted.map Prod.snd, ∀ cause digest,
      restoration.provenance≠.edit cause editId digest := by
  intro restoration hres cause digest hpro
  obtain ⟨entry,hent,rfl⟩ := mem_map.mp hres
  rw [List.isEmpty_iff,ownRows,filter_eq_nil_iff] at hown
  apply hown (entry.1,stable (entry.2.envelope redemption)) (mem_map_of_mem hent)
  rw [isText_envelope,isText_envelope]
  simp [Restoration.envelope,hpro,editEnvelope,isText,JsonText.Json.get]

end Requests

section Calls

variable {runtime : Runtime} {original : Allocation}
  {orderId : String} {posted : List (CreditTransaction×Restoration)} {next : CreditFundingState}

theorem planEdit_ledger (hrd : readRedemption redemption=.ok (orderId,original))
    (hled : Ledger redemption original posted)
    (hsha : ∀ text, isDigest (runtime.sha256 text)=true) {digest : String}
    {committed : Option CommittedEdit} {postings : List EditFundingPosting}
    {allocation : Allocation}
    (hpl : planEditCreditFunding runtime redemption (posted.map Prod.fst) true editId lines
      committed=.ok (.planned digest postings allocation next)) :
    ∃ new, postings=new.map (fun restoration => restoration.posting redemption) ∧
      Sound redemption original (posted.map Prod.snd++new) ∧
      next=stateOf redemption original (posted.map Prod.snd++new) := by
  have hfac := readRedemption_spec hrd
  rw [planEditCreditFunding,readState_ledger hrd hled] at hpl
  simp only [bind_eq_ok,Except.ok.injEq,exists_eq_left'] at hpl
  obtain ⟨_,hed,_,hlns,hpl⟩ := hpl
  have hed := requireFact_eq_ok hed
  cases committed with
  | some =>
    simp only [bind_eq_ok] at hpl
    obtain ⟨_,-,hpl⟩ := hpl
    cases hpl
  | none =>
    simp only [bind_eq_ok] at hpl
    obtain ⟨_,hown,plan,hfol,restored,hrestored,retained,hret,funded,-,_,-,hpl⟩ := hpl
    have hown := no_own_restoration (requireFact_eq_ok hown)
    have hres := Except.ok.inj hpl
    simp only [EditFundingResult.planned.injEq] at hres
    obtain ⟨hdig,rfl,-,rfl⟩ := hres
    have hval : isDigest digest=true := by
      rw [← hdig]
      exact hsha _
    rw [hdig] at hfol
    have hks : keys (stateOf redemption original (posted.map Prod.snd)).remaining.entries =
        keys original.entries := by
      simp [stateOf,remainingOf]
    rw [hks] at hfol
    have hord := perm_insertionSort (fun a b => runtime.localeLe a b=true) (keys original.entries)
    obtain ⟨new,hpla,-⟩ : ∃ new, Planned redemption original (posted.map Prod.snd) new plan∧_ := by
      refine FallibleSteps.foldlM_invariant (P := fun done plan => ∃ new,
        Planned redemption original (posted.map Prod.snd) new plan ∧
          ∀ restoration∈new, restoration.line∈done ∧
            ∃ cause, restoration.provenance=.edit cause editId digest) ?_ ?_ hfol
      · refine ⟨[],⟨by simpa using hled.sound,?_,rfl⟩,by simp⟩
        rw [append_nil]
        exact .read original (posted.map Prod.snd)
      rintro done line rest plan next hspl ⟨new,hpla,hnew⟩ hnx
      have hkn : line∈keys original.entries := hord.mem_iff.mp (by rw [hspl]; simp)
      have hdn : line∉done := by
        have hnod := hord.nodup_iff.mpr original.distinct
        rw [hspl,nodup_append] at hnod
        intro hold
        exact hnod.2.2 line hold line (by simp) rfl
      obtain ⟨units,hun⟩ := Record.get_isSome hkn
      obtain ⟨more,hmor,hlns'⟩ := planLine_planned hfac hnx hpla hun hed hval
        (by
          intro entry hent
          obtain ⟨target,htgt,huni⟩ := wantedUnits_mem hent
          exact checkTargetLines_money hlns target htgt entry.2 huni)
        (by
          intro other hot cause' digest' hcas
          rcases mem_append.mp hot with hold|hnewer
          · exact absurd hcas (hown other hold cause' digest')
          obtain ⟨hln,cause,hpro⟩ := hnew other hnewer
          rw [hpro] at hcas
          obtain ⟨-,-,rfl⟩ := Provenance.edit.inj hcas
          exact ⟨rfl,fun heq => hdn (heq ▸ hln)⟩)
      refine ⟨new++more,hmor,?_⟩
      intro restoration hrest
      rcases mem_append.mp hrest with hold|hnewer
      · exact ⟨mem_append_left _ (hnew restoration hold).1,(hnew restoration hold).2⟩
      · obtain ⟨hln,hcas⟩ := hlns' restoration hnewer
        exact ⟨by simp [hln],hcas⟩
    refine ⟨new,hpla.postings,hpla.sound,?_⟩
    obtain ⟨rfl,-⟩ := sum_eq_ok hrestored
    obtain ⟨rfl,-⟩ := sum_eq_ok hret
    have hamo : plan.postings.map EditFundingPosting.amount =
        new.map fun restoration => restoration.cents.sum := by
      rw [hpla.postings,map_map]
      rfl
    rw [hpla.agrees.sort,hpla.agrees.remaining,hamo,stateOf,stateOf,map_append,sum_append]

variable {indexes : List (Option Int)}

theorem returnedUnits_spec {state : CreditFundingState} {seen : List ℕ} {units : List UnitChange}
    (hun : returnedUnits state line indexes seen=.ok units) :
    (units.map UnitChange.index).Nodup∧∀ u∈units, u.index∉seen∧u.after=0 ∧
      (∃ cents, state.remaining.get line=some cents∧cents[u.index]?=some u.before) ∧
      u.index∉(state.returnedIndexes.get line).getD [] := by
  induction indexes generalizing seen units with
  | nil =>
    cases hun
    simp
  | cons first _ ih =>
    cases first with
    | none => exact ih hun
    | some index =>
      simp only [returnedUnits,bind_eq_ok] at hun
      obtain ⟨_,hfac,more,hmor,hun⟩ := hun
      cases hun
      obtain ⟨hnod,hrt⟩ := ih hmor
      have hfac := requireFact_eq_ok hfac
      simp only [Bool.and_eq_true,decide_eq_true_eq] at hfac
      obtain ⟨⟨⟨⟨hnon,hln⟩,hlt⟩,hfre⟩,hop⟩ := hfac
      obtain ⟨cents,hcen⟩ := Option.isSome_iff_exists.mp hln
      rw [hcen,Option.getD_some] at hlt
      have hind : index.toNat<cents.length := by omega
      constructor
      · rw [map_cons,nodup_cons]
        refine ⟨?_,hnod⟩
        intro hmem
        obtain ⟨u,hu,heq⟩ := mem_map.mp hmem
        exact (hrt u hu).1 (by simp [heq])
      · intro u hu
        rcases mem_cons.mp hu with rfl|htl
        · refine ⟨hfre,rfl,⟨cents,hcen,?_⟩,hop⟩
          simp [hcen,List.getElem?_eq_getElem hind]
        · obtain ⟨hsee,hfie⟩ := hrt u htl
          exact ⟨fun hold => hsee (by simp [hold]),hfie⟩

theorem sorted_return
    (hcon : Continues original restorations restoration) (hret : restoration.quantityReturn=true) :
    ((applyChanges ⟨remainingOf (edgesOf restorations) original,
        returnedIn (edgesOf restorations) original⟩ restoration.line true
          restoration.units).returnedIndexes.update restoration.line
            fun indexes => indexes.insertionSort (· ≤ ·)) =
      returnedIn (edgesOf (restorations++[restoration])) original := by
  refine Record.eq_of_get (by simp [applyChanges,returnedIn]) ?_
  intro line hln
  have hkn : line∈keys original.entries := by simpa [applyChanges,returnedIn] using hln
  obtain ⟨units,hun⟩ := Record.get_isSome hkn
  have hps := settledReturned_post hcon hun
  have hold : (returnedIn (edgesOf restorations) original).get line =
      some (settledReturned (edgesOf restorations) line units.length) := by
    rw [returnedIn,Record.get_mapValues,hun,Option.map_some]
  have hnew : (returnedIn (edgesOf (restorations++[restoration])) original).get line =
      some (settledReturned (edgesOf (restorations++[restoration])) line units.length) := by
    rw [returnedIn,Record.get_mapValues,hun,Option.map_some]
  by_cases heq : line=restoration.line
  · rw [if_pos ⟨heq,hret⟩] at hps
    simp only [applyChanges,if_true,Record.get_update,if_pos heq,hold,Option.map_some,hnew,
      sort_returned hps.symm]
  rw [if_neg fun hbo => heq hbo.1,append_nil] at hps
  have hsor : (settledReturned (edgesOf restorations) line units.length).insertionSort
      (· ≤ ·)=settledReturned (edgesOf restorations) line units.length :=
    List.Pairwise.insertionSort_eq (pairwise_le_range.filter _)
  simp only [applyChanges,if_true,Record.get_update,if_neg heq,hold,hnew]
  rw [← sort_returned hps.symm,hsor]

theorem planReturn_ledger (hrd : readRedemption redemption=.ok (orderId,original))
    (hled : Ledger redemption original posted) {operation : Operation} {posting : Option EditFundingPosting}
    (hpl : planCreditUnitReturn redemption (posted.map Prod.fst) true operation line indexes =
      .ok (posting,next)) (hkey : ∀ entry∈posting, entry.idempotencyKey ∉
      (posted.map Prod.fst).map CreditTransaction.idempotencyKey) :
    ∃ new, posting.toList=new.map (fun restoration => restoration.posting redemption) ∧
      Sound redemption original (posted.map Prod.snd++new) ∧
      next=stateOf redemption original (posted.map Prod.snd++new) := by
  rw [planCreditUnitReturn,readState_ledger hrd hled] at hpl
  simp only [bind_eq_ok,Except.ok.injEq,exists_eq_left'] at hpl
  obtain ⟨_,hreq,units,hun,hpl⟩ := hpl
  have hreq := requireFact_eq_ok hreq
  simp only [Bool.and_eq_true] at hreq
  obtain ⟨hdis,hspe⟩ := returnedUnits_spec hun
  split at hpl
  · cases hpl
    exact ⟨[],rfl,by simpa using hled.sound,by simp⟩
  · next hso =>
    have hnon : units≠[] := by simpa using hso
    obtain ⟨first,hfst⟩ := exists_mem_of_ne_nil _ hnon
    obtain ⟨cents,hcen,-⟩ := (hspe first hfst).2.2.1
    have hln : ∃ vector, original.get line=some vector := by
      rw [stateOf,remainingOf,Record.get_mapValues,Option.map_eq_some_iff] at hcen
      obtain ⟨vector,hvec,-⟩ := hcen
      exact ⟨vector,hvec⟩
    obtain ⟨vector,hvec⟩ := hln
    rw [bind_eq_ok] at hpl
    obtain ⟨amount,hamo,hpl⟩ := hpl
    obtain ⟨rfl,-,hmax⟩ := sum_eq_ok hamo
    cases hpl
    let restoration : Restoration := ⟨.operation operation,line,units⟩
    have hres : restoration.cents=units.map UnitChange.before := by
      apply map_congr_left
      intro u hu
      rw [(hspe u hu).2.1,sub_zero]
    have hlf : ∀ u∈units, (settledUnits (edgesOf (posted.map Prod.snd)) line vector
        vector.length)[u.index]?=some u.before := by
      intro u hu
      obtain ⟨others,hoth,hbef⟩ := (hspe u hu).2.2.1
      rw [stateOf,remainingOf,Record.get_mapValues,hvec,Option.map_some] at hoth
      rwa [← Option.some.inj hoth] at hbef
    have hran : ∀ u∈units, u.index<vector.length∧0≤u.before∧u.before ≤ maxCreditCents :=
      fun u hu => settled_range hled.sound hvec (hlf u hu)
    have hcon : Continues original (posted.map Prod.snd) restoration := by
      refine ⟨⟨by simp [restoration,hvec],hreq.2,hnon,?_,hdis,?_,?_,?_⟩,?_,?_⟩
      · intro u hu
        simpa [restoration,hvec] using (hran u hu).1
      · intro u hu
        have hbou := hran u hu
        have hz := (hspe u hu).2.1
        exact ⟨by omega,by omega,hbou.2.2⟩
      · intro u hu
        simpa [Restoration.quantityReturn,restoration] using (hspe u hu).2.1
      · rwa [hres]
      · intro u hu
        apply open_of_not_mem (hran u hu).1
        have hop := (hspe u hu).2.2.2
        rwa [stateOf,returnedIn,Record.get_mapValues,hvec,Option.map_some,Option.getD_some] at hop
      · intro others hoth u hu
        have heq : some vector=some others := hvec.symm.trans hoth
        cases heq
        exact hlf u hu
    have hpos : postingOf redemption line (unitEnvelope redemption line operation units)
        (if operation.kind=.refund then some operation.id else none) units.length
        (units.map UnitChange.before).sum (units.map UnitChange.before) =
          restoration.posting redemption := by
      rw [Restoration.posting,hres]
      rfl
    have hfre : restoration.key redemption ∉
        (posted.map Prod.snd).map fun r => r.key redemption := by
      intro hmem
      obtain ⟨other,hot,heq⟩ := mem_map.mp hmem
      obtain ⟨entry,hent,rfl⟩ := mem_map.mp hot
      apply hkey _ rfl
      rw [hpos,Restoration.posting,postingOf,keyFor_envelope,← heq]
      have hrow : entry.1.idempotencyKey=entry.2.key redemption := by
        rw [(hled.stored entry hent).key,Restoration.posting,postingOf,keyFor_envelope]
      rw [← hrow,map_map]
      exact mem_map_of_mem hent
    have hdig : ∀ other∈posted.map Prod.snd,
        SameDigest other restoration∧SameDigest restoration other := by
      intro other _
      constructor
      · intro _ _ _ _ _ _ hnew
        cases hnew
      · intro _ _ _ _ _ hnew
        cases hnew
    have hagr := (Agrees.read original (posted.map Prod.snd)).post hcon
    refine ⟨[restoration],by rw [hpos]; rfl,sound_post hled.sound hcon hfre hdig,?_⟩
    have hrem := hagr.remaining
    have hret := sorted_return hcon rfl
    have hcons := (sound_post hled.sound hcon hfre hdig).conserved
    have hbef := hled.sound.conserved
    rw [map_append,sum_append] at hcons
    simp only [map_cons,map_nil,sum_cons,sum_nil,hres] at hcons
    simp only [stateOf,CreditFundingState.mk.injEq,true_and]
    refine ⟨hrem,hret,?_,by omega⟩
    rw [map_append,sum_append,map_cons,map_nil,sum_singleton,hres]

end Calls

end SellRight.CreditFundingPlans
