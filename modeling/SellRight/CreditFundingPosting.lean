import SellRight.CreditFundingChains

/-!
# Posting one more restoration

A restoration that starts from the cents left on open units keeps sound
restorations sound, and writing its changes into the vectors of a planner
gives the vectors of the longer history. The planner's list of returned
indexes agrees with the history up to order.
-/

namespace SellRight.CreditFundingPosting

open KeyedRecord RowTable CreditMath CreditFundingLedger CreditFundingPlanner CreditFundingEnvelope
open List
  CreditFundingChains

/-- Cents of a line after its changes are written. -/
def writeChanges (changes : List UnitChange) (cents : List Int) : List Int :=
  changes.foldl (fun cents change => cents.set change.index change.after) cents

section
variable {changes : List UnitChange} {cents : List Int}

theorem writeChanges_other {n : ℕ}
    (hot : ∀ u∈changes, u.index≠n) : (writeChanges changes cents)[n]?=cents[n]? := by
  induction changes generalizing cents with
  | nil => rfl
  | cons change _ ih =>
    rw [writeChanges,foldl_cons,← writeChanges,ih fun u hu => hot u (by simp [hu]),
      getElem?_set_ne (hot change (by simp))]

theorem writeChanges_changed (hdis : (changes.map UnitChange.index).Nodup) {u : UnitChange} (hu : u∈changes)
    (hind : u.index<cents.length) : (writeChanges changes cents)[u.index]?=some u.after := by
  induction changes generalizing cents with
  | nil => cases hu
  | cons _ changes ih =>
    rw [map_cons,nodup_cons] at hdis
    rw [writeChanges,foldl_cons,← writeChanges]
    rcases mem_cons.mp hu with rfl|hrt
    · have hot : ∀ v∈changes, v.index≠u.index := by
        intro v hv heq
        exact hdis.1 (heq ▸ mem_map_of_mem hv)
      rw [writeChanges_other hot,getElem?_set_self hind]
    · exact ih hdis.2 hrt (by simpa using hind)

theorem writeChanges_sum (hdis : (changes.map UnitChange.index).Nodup)
    (hbef : ∀ u∈changes, cents[u.index]?=some u.before) : (writeChanges changes cents).sum =
      cents.sum-(changes.map fun u => u.before-u.after).sum := by
  induction changes generalizing cents with
  | nil => simp [writeChanges]
  | cons change changes ih =>
    rw [map_cons,nodup_cons] at hdis
    have hfst := hbef change (by simp)
    obtain ⟨hlt,hval⟩ := List.getElem?_eq_some_iff.mp hfst
    have hrt : ∀ u∈changes, (cents.set change.index change.after)[u.index]?=some u.before := by
      intro u hu
      have hne : change.index≠u.index := by
        intro heq
        exact hdis.1 (heq ▸ mem_map_of_mem hu)
      rw [List.getElem?_set_ne hne]
      exact hbef u (by simp [hu])
    rw [writeChanges,foldl_cons,← writeChanges,ih hdis.2 hrt,sum_set',
      dif_pos hlt,hval,map_cons,sum_cons]
    ring

end

section Edges

variable {restoration : Restoration} {line : String} {n : ℕ}

/-- Later edges come after earlier ones. -/
theorem chainOf_append (first second : List ((String×ℕ)×UnitEdge)) (line : String) (n : ℕ) :
    chainOf (first++second) line n=chainOf first line n++chainOf second line n := by
  simp [chainOf,filter_append]

/-- A restoration adds nothing to units it does not change. -/
theorem chainOf_edges_other (hot : restoration.line=line→∀ u∈restoration.units, u.index≠n) :
    chainOf restoration.edges line n=[] := by
  rw [chainOf,map_eq_nil_iff,filter_eq_nil_iff]
  intro entry hent hkey
  obtain ⟨u,hu,rfl⟩ := mem_map.mp hent
  simp only [Prod.mk.injEq,decide_eq_true_eq] at hkey
  exact hot hkey.1 u hu hkey.2

theorem chainOf_edges_changed (hdis : (restoration.units.map UnitChange.index).Nodup)
    {u : UnitChange} (hu : u∈restoration.units) :
    chainOf restoration.edges restoration.line u.index =
      [⟨u.before,u.after,restoration.quantityReturn⟩] := by
  rw [chainOf,Restoration.edges,filter_map,map_map]
  have hfil : restoration.units.filter
      ((fun entry : (String×ℕ)×UnitEdge => decide (entry.1=(restoration.line,u.index))) ∘
        fun v => ((restoration.line,v.index),⟨v.before,v.after,restoration.quantityReturn⟩)) =
      [u] := by
    have hsel := filter_key_eq_find UnitChange.index u.index hdis
    rw [find_key_self UnitChange.index hdis hu] at hsel
    exact (filter_congr fun v _ => by simp).trans hsel
  rw [hfil]
  rfl

end Edges

theorem edgesOf_snoc (restorations : List Restoration) (restoration : Restoration) :
    edgesOf (restorations++[restoration])=edgesOf restorations++restoration.edges := by
  simp [edgesOf]

/-- A restoration of open units, from the cents left on them. -/
structure Continues (original : Allocation) (restorations : List Restoration)
    (restoration : Restoration) : Prop where
  fits : Fits original restoration
  opens : ∀ u∈restoration.units,
    returnedOf (chainOf (edgesOf restorations) restoration.line u.index)=false
  /-- Its changes start from the cents left. -/
  before : ∀ units, original.get restoration.line=some units→∀ u∈restoration.units,
    (settledUnits (edgesOf restorations) restoration.line units units.length)[u.index]? =
      some u.before

section Post

variable {redemption : CreditTransaction} {original : Allocation} {restorations : List Restoration}
  {restoration : Restoration}

section
variable (hcon : Continues original restorations restoration)
include hcon

/-- Cents of a line after one more restoration. -/
theorem settledUnits_post {line : String} {units : List Int} (hun : original.get line=some units) :
    settledUnits (edgesOf (restorations++[restoration])) line units units.length =
      if line=restoration.line then
        writeChanges restoration.units (settledUnits (edgesOf restorations) line units units.length)
      else settledUnits (edgesOf restorations) line units units.length := by
  rw [edgesOf_snoc]
  by_cases hln : line=restoration.line
  · subst hln
    rw [if_pos rfl]
    apply ext_getElem?
    intro n
    by_cases hcha : ∃ u∈restoration.units, u.index=n
    · obtain ⟨u,hu,rfl⟩ := hcha
      have hlt : u.index<units.length := by
        have hind := hcon.fits.index u hu
        rwa [hun,Option.getD_some] at hind
      rw [writeChanges_changed hcon.fits.distinct hu (by simpa [settledUnits] using hlt)]
      simp [settledUnits,hlt,chainOf_append,chainOf_edges_changed hcon.fits.distinct hu,currentOf]
    · have hot : ∀ u∈restoration.units, u.index≠n := fun u hu heq => hcha ⟨u,hu,heq⟩
      rw [writeChanges_other hot]
      simp [settledUnits,chainOf_append,chainOf_edges_other fun _ => hot]
  · rw [if_neg hln]
    have hchain : ∀ n, chainOf restoration.edges line n=[] := by
      intro n
      exact chainOf_edges_other fun heq => absurd heq.symm hln
    simp [settledUnits,chainOf_append,hchain]

/-- Remaining cents after one more restoration. -/
theorem remainingOf_post :
    remainingOf (edgesOf (restorations++[restoration])) original =
      (remainingOf (edgesOf restorations) original).update restoration.line
        (writeChanges restoration.units) := by
  refine Record.eq_of_get (by simp [remainingOf]) ?_
  intro line _
  rw [remainingOf,Record.get_mapValues,Record.get_update,remainingOf,Record.get_mapValues]
  cases hun : original.get line with
  | none => simp
  | some =>
    simp only [Option.map_some,settledUnits_post hcon hun]
    split <;> rfl

theorem settledReturned_post {line : String} {units : List Int} (hun : original.get line=some units) :
    (settledReturned (edgesOf (restorations++[restoration])) line units.length).Perm
      (settledReturned (edgesOf restorations) line units.length ++
        if line=restoration.line∧restoration.quantityReturn=true then
          restoration.units.map UnitChange.index else []) := by
  have hdis := hcon.fits.distinct
  have hchain : ∀ n, chainOf (edgesOf (restorations++[restoration])) line n =
      chainOf (edgesOf restorations) line n++chainOf restoration.edges line n := by
    intro n
    rw [edgesOf_snoc,chainOf_append]
  have hfil : ∀ transitions, (settledReturned transitions line units.length).Nodup :=
    fun transitions => nodup_range.filter _
  split_ifs with hadd
  · obtain ⟨rfl,hret⟩ := hadd
    refine (perm_ext_iff_of_nodup (hfil _) ?_).mpr ?_
    · rw [nodup_append]
      refine ⟨hfil _,hdis,?_⟩
      intro n hold m hnew heq
      subst heq
      obtain ⟨u,hu,rfl⟩ := mem_map.mp hnew
      have hbk := (mem_filter.mp hold).2
      rw [hcon.opens u hu] at hbk
      cases hbk
    · intro n
      rw [mem_append,settledReturned,settledReturned,mem_filter,mem_filter,hchain,mem_map]
      by_cases hcha : ∃ u∈restoration.units, u.index=n
      · obtain ⟨u,hu,rfl⟩ := hcha
        have hlt : u.index<units.length := by
          have hind := hcon.fits.index u hu
          rwa [hun,Option.getD_some] at hind
        rw [chainOf_edges_changed hdis hu]
        simp only [mem_range,hlt,returnedOf,getLast?_concat,Option.map_some,
          Option.getD_some,hret,true_and,true_iff]
        exact .inr ⟨u,hu,rfl⟩
      · have hot : ∀ u∈restoration.units, u.index≠n := fun u hu heq => hcha ⟨u,hu,heq⟩
        rw [chainOf_edges_other fun _ => hot,append_nil]
        exact ⟨.inl,fun h => h.resolve_right hcha⟩
  · rw [append_nil]
    have heq : ∀ n, returnedOf (chainOf (edgesOf (restorations++[restoration])) line n) =
        returnedOf (chainOf (edgesOf restorations) line n) := by
      intro n
      rw [hchain]
      by_cases hcha : restoration.line=line∧∃ u∈restoration.units, u.index=n
      · obtain ⟨rfl,u,hu,rfl⟩ := hcha
        have hkp : restoration.quantityReturn=false := by simpa using hadd
        rw [chainOf_edges_changed hdis hu,hcon.opens u hu]
        simp [returnedOf,hkp]
      · rw [chainOf_edges_other fun hln u hu hind => hcha ⟨hln,u,hu,hind⟩,append_nil]
    rw [settledReturned,settledReturned]
    simp only [heq]
    exact Perm.refl _

end

theorem sound_post (hsd : Sound redemption original restorations)
    (hcon : Continues original restorations restoration)
    (hkey : restoration.key redemption∉restorations.map fun r => r.key redemption)
    (hdig : ∀ other∈restorations, SameDigest other restoration∧SameDigest restoration other) :
    Sound redemption original (restorations++[restoration]) := by
  have hfs := hcon.fits
  obtain ⟨units,hun⟩ := Option.isSome_iff_exists.mp hfs.line
  refine ⟨?_,?_,?_,?_,?_⟩
  · intro other hot
    rcases mem_append.mp hot with hold|hnew
    · exact hsd.fits other hold
    · rwa [mem_singleton.mp hnew]
  · rw [map_append,nodup_append]
    refine ⟨hsd.keys,by simp,?_⟩
    intro old hold new hnew heq
    rw [map_cons,map_nil,mem_singleton] at hnew
    exact hkey (hnew ▸ heq ▸ hold)
  · intro first hfst second hsec
    rcases mem_append.mp hfst with hfst|hfst <;> rcases mem_append.mp hsec with hsec|hsec
    · exact hsd.digests first hfst second hsec
    · rw [mem_singleton.mp hsec]
      exact (hdig first hfst).1
    · rw [mem_singleton.mp hfst]
      exact (hdig second hsec).2
    · rw [mem_singleton.mp hfst,mem_singleton.mp hsec]
      intro cause other editId digest digest' hone htwo
      rw [hone] at htwo
      exact (Provenance.edit.inj htwo).2.2
  · intro line others hoth n hn
    have hord := hsd.chains line others hoth n hn
    rw [edgesOf_snoc,chainOf_append]
    by_cases hcha : restoration.line=line∧∃ u∈restoration.units, u.index=n
    · obtain ⟨rfl,u,hu,rfl⟩ := hcha
      have hbef := hcon.before others hoth u hu
      have hcen := hfs.cents u hu
      have hcau := hfs.cause u hu
      rw [chainOf_edges_changed hfs.distinct hu]
      refine hord.snoc (hcon.opens u hu) ?_ hcen.1 hcen.2.1 ?_
      · simpa [settledUnits,hn] using hbef.symm
      · intro hkp
        have hkp : restoration.quantityReturn=false := hkp
        rwa [hkp,if_neg (by simp)] at hcau
    · rw [chainOf_edges_other fun hln u hu hind => hcha ⟨hln,u,hu,hind⟩,append_nil]
      exact hord
  · have hrd : (remainingOf (edgesOf restorations) original).get restoration.line =
        some (settledUnits (edgesOf restorations) restoration.line units units.length) := by
      rw [remainingOf,Record.get_mapValues,hun,Option.map_some]
    have hwri := writeChanges_sum hfs.distinct (hcon.before units hun)
    have htot := sum_modify sum (remainingOf (edgesOf restorations) original).distinct hrd
      (writeChanges restoration.units)
    have hcons := hsd.conserved
    rw [remainingOf_post hcon,Record.update,map_append,sum_append]
    rw [flatMap_def,sum_flatten,map_map] at hcons ⊢
    simp only [map_cons,map_nil,sum_cons,sum_nil,Function.comp_def] at hcons ⊢
    rw [htot,hwri,← hcons,Restoration.cents]
    ring

end Post

end SellRight.CreditFundingPosting
