import SellRight.LicenseEffects
import SellRight.RunHistory

/-!
# Stale lease ids

A lease id dies when its activation gets a newer lease or is tombstoned.
Renewal and offline removal accept a lease id only on a live row, so a dead
id stays dead as long as no step makes a tombstoned row live again without
rotating the lease id it still carries. Two activation paths and the
StoreKit restore do exactly that.
-/

namespace SellRight.LicenseLeaseReplay

open List

open LicenseActivations LicenseEffects RowTable RunHistory

/-- Histories of licensing requests. -/
abbrev History := List (Event Database Action Outcome)

/-- Lease id carried by an answer. -/
def handedOut (answer : Outcome) : Option String := (leaseOf answer).map LeaseCore.leaseId

/-- The event handed out the lease id, which the activation carries after
it. -/
def HandsOut (leaseId activationId : String) (e : Event Database Action Outcome) : Prop :=
  handedOut e.result=some leaseId ∧
    ∃ row∈e.after.activations, row.id=activationId∧row.leaseId=some leaseId

/-- The event ended earlier leases of the activation: a newer lease was handed
out on it, or its row was left tombstoned. -/
def EndsLeases (activationId : String) (e : Event Database Action Outcome) : Prop :=
  (∃ newer, HandsOut newer activationId e) ∨
    ∃ row∈e.after.activations, row.id=activationId∧row.state≠.active

/-- The lease id was handed out on an activation and ended later on. -/
def Dead (h : History) (leaseId : String) : Prop :=
  ∃ h₁ e₁ h₂ e₂ h₃ activationId, h=h₁++e₁::(h₂++e₂::h₃) ∧
    HandsOut leaseId activationId e₁∧EndsLeases activationId e₂

/-- Lease id drawn by a request that may hand one out. -/
def drawnLease : Action → Option String
  | .issueDeviceLease _ fresh _ => some fresh.leaseId
  | .renewDeviceLease _ fresh _ => some fresh.leaseId
  | _ => none

/-- The lease id was on a row at the start or has been handed out since. -/
def Seen (start : Database) (h : History) (leaseId : String) : Prop :=
  (∃ row∈start.activations, row.leaseId=some leaseId)∨∃ e∈h, handedOut e.result=some leaseId

instance (start : Database) (h : History) (leaseId : String) : Decidable (Seen start h leaseId) :=
  inferInstanceAs (Decidable (_∨_))

/-- A drawn lease id differs from every earlier one. -/
def FreshLease (start : Database) (h : History) (action : Action) : Prop :=
  ∀ leaseId∈drawnLease action, ¬ Seen start h leaseId

instance (start : Database) (h : History) (action : Action) :
    Decidable (FreshLease start h action) :=
  inferInstanceAs (Decidable (∀ leaseId∈drawnLease action, ¬ Seen start h leaseId))

/-- The request makes a tombstoned row live again while it still carries an
old lease id: an admitted activation or link of a tombstoned device, or a
reinstating notification. -/
def RevivesLease (engine : Engine) (db : Database) : Action → Prop
  | .activateLicenseOnDevice now _ input => ∃ plan row,
    admitActivation engine db now input=.ok plan∧plan.sameDevice=some row ∧
      row.state≠.active∧row.leaseId≠none
  | .issueStoreKitActivation now _ input => ∃ lic row,
    admitLink engine db now input=.ok (lic,some row)∧row.state≠.active∧row.leaseId≠none
  | .applyStoreKitNotification now input => ∃ row∈db.activations,
    restoreTarget db (.applyStoreKitNotification now input) row=true∧row.leaseId≠none
  | _ => False

variable {engine : Engine} {db : Database} {action : Action} {answer : Outcome}
  {rows : List ActivationRow} {leaseId : String}

theorem Effect.drawn (heff : Effect engine db action answer rows)
    (hout : handedOut answer=some leaseId) : drawnLease action=some leaseId := by
  obtain ⟨core,hcor,rfl⟩ := Option.map_eq_some_iff.mp hout
  cases heff with
  | idle hans => simp [hans] at hcor
  | rewritten hch _ _ hlea | inserted hch _ _ hlea =>
    simp only [hcor,Option.map_some] at hlea
    cases hch with
    | lease =>
      simp only [Option.map_some,Option.some.injEq,Prod.mk.injEq] at hlea
      rw [drawnLease,hlea.1]
    | activation | link => simp at hlea
  | renewed hact _ hlea =>
    simp only [hcor,Option.map_some,Option.some.injEq,Prod.mk.injEq] at hlea
    rw [hact,drawnLease,hlea.1]
  | tombstoned _ hans | restored hans | deleted hans => simp [hans] at hcor

theorem handedOut_eq {pair : String×ℕ}
    (h : (leaseOf answer).map (fun core => (core.leaseId,core.generation))=some pair) :
    handedOut answer=some pair.1 := by
  obtain ⟨core,hcor,rfl⟩ := Option.map_eq_some_iff.mp h
  rw [handedOut,hcor,Option.map_some]

/-- Where a carried lease id comes from: it was drawn by this request, or the
same row carried it before and was live if it is live now. -/
theorem Effect.lease_origin (huni : UniqueRows db.activations)
    (heff : Effect engine db action answer rows) (hkee : ¬ RevivesLease engine db action)
    {row : ActivationRow} (hrow : row∈rows) (hlea : row.leaseId=some leaseId) :
    handedOut answer=some leaseId∨∃ old∈db.activations, old.id=row.id∧old.leaseId=some leaseId ∧
        (row.state=.active → old.state=.active) := by
  cases heff with
  | idle => exact .inr ⟨row,hrow,rfl,hlea,id⟩
  | @rewritten lic device drawn f target hrew htgt _ hans =>
    rcases mem_updateWhere.mp hrow with ⟨old,hold,hid,rfl⟩|⟨hold,-⟩
    · obtain ⟨hmem,-,-⟩ := deviceRow_spec htgt
      have heq := eq_of_id huni hold hmem (by simpa using hid)
      subst heq
      have hcol := (hrew.columns old).2.2.2.2.2
      rw [hcol] at hlea
      cases hrew with
      | lease =>
        exact .inl ((handedOut_eq hans).trans (by simpa using hlea))
      | activation hpl =>
        have hdev := (admitActivation_ok hpl).device
        refine .inr ⟨old,hold,rfl,by simpa using hlea,fun _ => ?_⟩
        by_contra hdd
        exact hkee ⟨_,old,hpl,hdev.trans htgt,hdd,by simp_all⟩
      | link hpl =>
        have hdev := (admitLink_ok hpl).device
        refine .inr ⟨old,hold,rfl,by simpa using hlea,fun _ => ?_⟩
        by_contra hdd
        rw [htgt] at hdev
        subst hdev
        exact hkee ⟨_,old,hpl,hdd,by simp_all⟩
    · exact .inr ⟨row,hold,rfl,hlea,id⟩
  | inserted hins _ _ hans =>
    rcases mem_concat_iff.mp hrow with hold|rfl
    · exact .inr ⟨row,hold,rfl,hlea,id⟩
    · rw [← hins.columns.2.2.2.2,hlea] at hans
      exact .inl (handedOut_eq hans)
  | renewed _ _ hans =>
    rcases mem_updateWhere.mp hrow with ⟨old,-,-,rfl⟩|⟨hold,-⟩
    · exact .inl ((handedOut_eq hans).trans (by simpa [renewedRow] using hlea))
    · exact .inr ⟨row,hold,rfl,hlea,id⟩
  | tombstoned hf =>
    rcases mem_updateWhere.mp hrow with ⟨old,hold,-,rfl⟩|⟨hold,-⟩
    · exact .inr ⟨old,hold,(hf.id old).symm,(hf.leaseId old).symm.trans hlea,
        fun hlv => absurd hlv (hf.dead old)⟩
    · exact .inr ⟨row,hold,rfl,hlea,id⟩
  | restored =>
    rcases mem_updateWhere.mp hrow with ⟨old,hold,htgt,rfl⟩|⟨hold,-⟩
    · exfalso
      cases action with
      | applyStoreKitNotification => exact hkee ⟨old,hold,htgt,by simp_all⟩
      | _ => simp [restoreTarget] at htgt
    · exact .inr ⟨row,hold,rfl,hlea,id⟩
  | deleted => exact .inr ⟨row,(mem_deleteWhere.mp hrow).1,rfl,hlea,id⟩

theorem Effect.lease_owner (heff : Effect engine db action answer rows)
    (hnew : ∀ old∈db.activations, old.leaseId≠some leaseId)
    {a b : ActivationRow} (ha : a∈rows) (hb : b∈rows) (hla : a.leaseId=some leaseId)
    (hlb : b.leaseId=some leaseId) : a.id=b.id := by
  have hupd : ∀ {id : String} {f : ActivationRow → ActivationRow},
      (∀ row, (f row).id=row.id)→∀ {row : ActivationRow},
      row∈updateWhere (fun r => r.id=id) f db.activations → row.leaseId=some leaseId →
      row.id=id := by
    intro id f hid row hrow hlea
    rcases mem_updateWhere.mp hrow with ⟨old,-,hmt,rfl⟩|⟨hold,-⟩
    · rw [hid old]
      simpa using hmt
    · exact absurd hlea (hnew row hold)
  cases heff with
  | idle => exact absurd hla (hnew a ha)
  | rewritten hrew =>
    have hid := fun row => (hrew.columns row).1
    exact (hupd hid ha hla).trans (hupd hid hb hlb).symm
  | inserted =>
    rcases mem_append.mp ha with hold|hlt
    · exact absurd hla (hnew a hold)
    · rcases mem_append.mp hb with hold|hlt'
      · exact absurd hlb (hnew b hold)
      · rw [mem_singleton.mp hlt,mem_singleton.mp hlt']
  | @renewed now fresh _ _ lic =>
    have hid : ∀ row, (renewedRow engine lic fresh now row).id=row.id := fun _ => rfl
    exact (hupd hid ha hla).trans (hupd hid hb hlb).symm
  | tombstoned hf =>
    rcases mem_updateWhere.mp ha with ⟨old,hold,-,rfl⟩|⟨hold,-⟩
    · exact absurd ((hf.leaseId old).symm.trans hla) (hnew old hold)
    · exact absurd hla (hnew a hold)
  | restored =>
    rcases mem_updateWhere.mp ha with ⟨old,hold,-,rfl⟩|⟨hold,-⟩
    · exact absurd hla (hnew old hold)
    · exact absurd hla (hnew a hold)
  | deleted => exact absurd hla (hnew a (mem_deleteWhere.mp ha).1)

/-- What every history of fresh lease ids leaves behind. -/
structure LeaseInvariant (start : Database) (h : History) (db : Database) : Prop where
  unique : UniqueRows db.activations
  /-- Every carried lease id was there at the start or handed out since. -/
  known : ∀ row∈db.activations, ∀ leaseId, row.leaseId=some leaseId → Seen start h leaseId
  owner : ∀ e∈h, ∀ leaseId activationId, HandsOut leaseId activationId e →
    ∀ row∈db.activations, row.leaseId=some leaseId → row.id=activationId
  dead : ∀ leaseId, Dead h leaseId→∀ row∈db.activations, row.leaseId=some leaseId →
    row.state≠.active

variable {e : Event Database Action Outcome}

theorem HandsOut.seen {start : Database} {h : History}
    (he : e∈h) {activationId : String} (hout : HandsOut leaseId activationId e) :
    Seen start h leaseId :=
  .inr ⟨e,he,hout.1⟩

/-- A dead lease id of an extended history was dead before, or the last event
ended it. -/
theorem dead_append {h : History}
    (hdd : Dead (h++[e]) leaseId) : Dead h leaseId ∨
      ∃ e₁∈h, ∃ activationId, HandsOut leaseId activationId e₁∧EndsLeases activationId e := by
  obtain ⟨h₁,e₁,h₂,e₂,h₃,activationId,heq,hout,hend⟩ := hdd
  induction h₃ using List.reverseRecOn with
  | nil =>
    right
    have hspl : h++[e]=(h₁++e₁::h₂)++[e₂] := by simpa using heq
    obtain ⟨rfl,hlt⟩ := append_inj' hspl rfl
    cases hlt
    exact ⟨e₁,by simp,activationId,hout,hend⟩
  | append_singleton rest last =>
    left
    have hspl : h++[e]=(h₁++e₁::(h₂++e₂::rest))++[last] := by simpa using heq
    obtain ⟨rfl,-⟩ := append_inj' hspl rfl
    exact ⟨h₁,e₁,h₂,e₂,rest,activationId,rfl,hout,hend⟩

section Step

variable {start : Database} {h : History}

section
variable (hinv : LeaseInvariant start h db) (hfre : FreshLease start h action)
variable (hkee : ¬ RevivesLease engine db action)
include hinv hfre hkee

/-- A row of the next table that carries a seen lease id carried it before,
and was live if it is live now. -/
theorem carried_before {row : ActivationRow} (hrow : row∈(step engine db action).2.activations)
    (hlea : row.leaseId=some leaseId) (hsee : Seen start h leaseId) :
    ∃ old∈db.activations, old.id=row.id∧old.leaseId=some leaseId ∧
      (row.state=.active → old.state=.active) := by
  have heff := step_effect engine hinv.unique action
  rcases Effect.lease_origin hinv.unique heff hkee hrow hlea with
    hout | hold
  · exact absurd hsee (hfre _ (Effect.drawn heff hout))
  · exact hold

/-- One admitted request keeps the invariant. -/
theorem LeaseInvariant.next :
    LeaseInvariant start (h++[perform (step engine) db action]) (step engine db action).2 := by
  have heff := step_effect engine hinv.unique action
  have huni := step_unique engine hinv.unique action
  have how : ∀ e∈h, ∀ leaseId activationId, HandsOut leaseId activationId e →
      ∀ row∈(step engine db action).2.activations, row.leaseId=some leaseId →
      row.id=activationId := by
    intro e he leaseId activationId hout row hrow hlea
    obtain ⟨old,hold,hid,hcar,-⟩ := carried_before hinv hfre hkee hrow hlea (hout.seen he)
    exact hid ▸ hinv.owner e he leaseId activationId hout old hold hcar
  refine ⟨huni,?_,?_,?_⟩
  · intro row hrow leaseId hlea
    rcases Effect.lease_origin hinv.unique heff hkee hrow hlea with
      hout|⟨old,hold,-,hcar,-⟩
    · exact .inr ⟨perform (step engine) db action,by simp,hout⟩
    · rcases hinv.known old hold leaseId hcar with hsta|⟨e,he,hout⟩
      · exact .inl hsta
      · exact .inr ⟨e,mem_append_left _ he,hout⟩
  · intro e he leaseId activationId hout row hrow hlea
    rcases mem_concat_iff.mp he with hold|rfl
    · exact how e hold leaseId activationId hout row hrow hlea
    · obtain ⟨hdra,carrier,hcarr,hid,hcarries⟩ := hout
      have hnew : ∀ old∈db.activations, old.leaseId≠some leaseId :=
        fun old hold hcar => hfre _ (Effect.drawn heff hdra) (hinv.known old hold _ hcar)
      exact (Effect.lease_owner heff hnew hrow hcarr hlea hcarries).trans hid
  · intro leaseId hdd row hrow hlea hlv
    rcases dead_append hdd with hpa|⟨e₁,he₁,activationId,hout,hend⟩
    · obtain ⟨h₁,e₁,h₂,e₂,h₃,a,rfl,hout,-⟩ := id hpa
      obtain ⟨old,hold,-,hcar,hst⟩ :=
        carried_before hinv hfre hkee hrow hlea (hout.seen (by simp))
      exact hinv.dead leaseId hpa old hold hcar (hst hlv)
    · have hid := how e₁ he₁ leaseId activationId hout row hrow hlea
      rcases hend with ⟨newer,hdra,carrier,hcarr,hcid,hcarries⟩|⟨ended,hended,heid,hst⟩
      · have heq := eq_of_id huni hrow hcarr (hid.trans hcid.symm)
        subst heq
        have hequ : leaseId=newer := by simpa [hlea] using hcarries
        subst hequ
        exact hfre _ (Effect.drawn heff hdra) (hout.seen he₁)
      · have heq := eq_of_id huni hrow hended (hid.trans heid.symm)
        subst heq
        exact hst hlv

end

end Step

def Renewed (answer : Outcome) : Prop := ∃ lease, answer=.leaseRenewed lease

/-- The event does not honour the lease id: a renewal presenting it is not
answered ok and an offline removal presenting it writes nothing. -/
def Refuses (leaseId : String) (e : Event Database Action Outcome) : Prop :=
  (∀ now fresh input, e.action=.renewDeviceLease now fresh input→input.leaseId=leaseId →
      ¬ Renewed e.result) ∧
    ∀ now storeId appKey device, e.action=.removeDeviceOffline now storeId appKey device leaseId →
        e.after.activations=e.before.activations

theorem renewed_live {now : Int} {fresh : Fresh}
    {input : RenewInput} (h : Renewed (renewDeviceLease engine db now fresh input).1) :
    ∃ row∈db.activations, row.leaseId=some input.leaseId∧row.state=.active := by
  obtain ⟨lease,hlea⟩ := h
  unfold renewDeviceLease at hlea
  cases hok : admitRenewal engine db now input with
  | error answer =>
    simp only [hok] at hlea
    exact absurd (by simp [hlea,leaseOf]) ((admitRenewal_admitting engine db now input).2 _ hok)
  | ok plan =>
    have hren := admitRenewal_ok hok
    exact ⟨plan.1,hren.found,hren.lease,hren.state⟩

theorem refuses_of_no_live
    (hno : ∀ row∈db.activations, row.leaseId=some leaseId → row.state≠.active)
    (action : Action) : Refuses leaseId (perform (step engine) db action) := by
  constructor
  · intro now fresh input hact hlea hren
    simp only [perform] at hact hren
    subst hact
    obtain ⟨row,hrow,hcar,hlv⟩ := renewed_live hren
    exact hno row hrow (hlea ▸ hcar) hlv
  · intro now storeId appKey device hact
    simp only [perform] at hact ⊢
    subst hact
    refine updateWhere_eq_self fun row hrow => ?_
    by_contra htgt
    simp only [removalTarget,Bool.not_eq_false,Bool.and_eq_true,decide_eq_true_eq] at htgt
    exact hno row hrow htgt.1.2 htgt.2

/-- In every run of fresh lease ids that never revives a tombstoned row with
its old lease id, a lease id stays dead once it is superseded or its
activation is tombstoned. -/
theorem stale_lease_stays_dead (engine : Engine) (start : Database)
    (hstart : UniqueRows start.activations) {past later : History}
    {e : Event Database Action Outcome} {s : Database}
    (hrun : Run (step engine) (fun h db action => FreshLease start h action ∧
      ¬ RevivesLease engine db action) start (past++e::later) s)
    {leaseId : String} (hdead : Dead past leaseId) : Refuses leaseId e := by
  obtain ⟨hpa,-,heve⟩ := Run.split hrun
  have hinv : LeaseInvariant start past e.before := by
    refine Run.invariant (P := LeaseInvariant start) hpa ⟨hstart,?_,?_,?_⟩ ?_
    · exact fun row hrow leaseId hlea => .inl ⟨row,hrow,hlea⟩
    · intro e he
      simp at he
    · rintro leaseId ⟨h₁,e₁,h₂,e₂,h₃,activationId,hnil,-⟩
      simp at hnil
    · intro h db action hinv hall
      exact hinv.next hall.1 hall.2
  rw [heve]
  exact refuses_of_no_live (hinv.dead leaseId hdead) e.action

/-- A lease is handed out. -/
def sampleHandout : Event Database Action Outcome := perform (step sampleEngine) sampleStart
    (.issueDeviceLease 0 ⟨"act-1", "token-1", "lease-1"⟩ (sampleIssue "mac-a" "macos"))

/-- A renewal presenting the first lease. -/
def sampleRenewal (now : Int) (fresh : Fresh) : Action := .renewDeviceLease now fresh
    {storeId := "store-1", appKey := "app", deviceIdHash := "mac-a", leaseId := "lease-1"}

/-- The first lease is renewed away. -/
def sampleRotation : Event Database Action Outcome :=
  perform (step sampleEngine) sampleHandout.after (sampleRenewal 1 ⟨"act-2", "token-2", "lease-2"⟩)

/-- The law at a run that replays a superseded lease id. -/
theorem stale_lease_stays_dead_replay :
    Dead [sampleHandout,sampleRotation] "lease-1" ∧
      Refuses "lease-1" (perform (step sampleEngine) sampleRotation.after
        (sampleRenewal 2 ⟨"act-3", "token-3", "lease-3"⟩)) := by
  have hrun : Run (step sampleEngine) (fun h db action => FreshLease sampleStart h action ∧
      ¬ RevivesLease sampleEngine db action) sampleStart
      ([sampleHandout,sampleRotation]++perform (step sampleEngine) sampleRotation.after
        (sampleRenewal 2 ⟨"act-3", "token-3", "lease-3"⟩)::[]) _ :=
    Run.snoc _ (.snoc _ (.snoc _ Run.nil ⟨by decide,id⟩) ⟨by decide,id⟩) ⟨by decide,id⟩
  have hdd : Dead [sampleHandout,sampleRotation] "lease-1" :=
    ⟨[],sampleHandout,[],sampleRotation,[], "act-1",rfl,
      ⟨rfl,_,mem_cons_self,rfl,rfl⟩,
      .inl ⟨"lease-2",rfl,_,mem_cons_self,rfl,rfl⟩⟩
  exact ⟨hdd,stale_lease_stays_dead sampleEngine sampleStart (by decide) hrun hdd⟩

/-- The device is revoked while it holds the first lease. -/
def sampleRevocation : Event Database Action Outcome :=
  perform (step sampleEngine) sampleHandout.after (.revokeDeviceRemote 1 "store-1" "lic-1" "act-1")

/-- The StoreKit link path makes the revoked device live again. -/
def sampleReactivation : Event Database Action Outcome :=
  perform (step sampleEngine) sampleRevocation.after
    (.issueStoreKitActivation 2 ⟨"act-2", "token-2", "lease-2"⟩
      {storeId := "store-1", appKey := "app", licenseKey := "key-1", deviceIdHash := "mac-a"})

/-- A lease from before a revocation renews again once the device has been
linked again. -/
theorem stale_lease_renews_after_reactivation :
    ¬ ∀ (engine : Engine) (start : Database), UniqueRows start.activations →
      ∀ (past later : History) (e : Event Database Action Outcome) (s : Database),
      Run (step engine) (fun h _ action => FreshLease start h action) start (past++e::later) s →
      ∀ leaseId, Dead past leaseId → Refuses leaseId e := by
  intro hall
  have hrun : Run (step sampleEngine) (fun h _ action => FreshLease sampleStart h action)
      sampleStart ([sampleHandout,sampleRevocation,sampleReactivation] ++
        perform (step sampleEngine) sampleReactivation.after
          (sampleRenewal 3 ⟨"act-3", "token-3", "lease-3"⟩)::[]) _ :=
    Run.snoc _ (.snoc _ (.snoc _ (.snoc _ Run.nil (by decide)) (by decide)) (by decide)) (by decide)
  have hdd : Dead [sampleHandout,sampleRevocation,sampleReactivation] "lease-1" :=
    ⟨[],sampleHandout,[],sampleRevocation,[sampleReactivation], "act-1",rfl,
      ⟨rfl,_,mem_cons_self,rfl,rfl⟩,
      .inr ⟨_,mem_cons_self,rfl,by decide⟩⟩
  have href := hall sampleEngine sampleStart (by decide) _ _ _ _ hrun "lease-1" hdd
  exact href.1 3 ⟨"act-3", "token-3", "lease-3"⟩ _ rfl rfl ⟨_,rfl⟩

end SellRight.LicenseLeaseReplay
