import SellRight.LicenseEffects
import SellRight.RunHistory

/-!
# Lease generations along whole runs

The generation lives in the activation row, which steps rewrite, reuse,
reinstate and, in one case, delete. The floor of a licence and device is the
generation of its row, or zero without a row; every lease carries the floor
it meets and every tombstone raises it. Only deleting a row can lower it.
-/

namespace SellRight.LicenseGeneration

open List

open LicenseActivations LicenseEffects RowTable RunHistory

/-- Generation that the next lease of a licence and device would carry. -/
def generationFloor (db : Database) (licenseId device : String) : ℕ :=
  ((deviceRow db licenseId device).map ActivationRow.generation).getD 0

variable {db : Database} {row : ActivationRow} {licenseId device : String} {engine : Engine}
  {action : Action}

/-- The floor is read off any row of the key. -/
theorem generationFloor_of_mem (huni : UniqueRows db.activations) (hrow : row∈db.activations) :
    generationFloor db row.licenseId row.deviceIdHash=row.generation := by
  simp [generationFloor,deviceRow_eq_some huni hrow]

/-- The floor does not fall when every row of the key survives with at least
its generation, or carried generation zero. -/
theorem generationFloor_le {db' : Database} (huni' : UniqueRows db'.activations)
    (h : ∀ row∈db.activations, row.licenseId=licenseId → row.deviceIdHash=device →
      row.generation=0∨∃ row'∈db'.activations, row'.licenseId=licenseId ∧
        row'.deviceIdHash=device∧row.generation≤row'.generation) :
    generationFloor db licenseId device≤generationFloor db' licenseId device := by
  cases hfin : deviceRow db licenseId device with
  | none => simp [generationFloor,hfin]
  | some row =>
    obtain ⟨hmem,hlic,hdev⟩ := deviceRow_spec hfin
    have hflo : generationFloor db licenseId device=row.generation := by simp [generationFloor,hfin]
    rcases h row hmem hlic hdev with hgen|⟨row',hmem',hlic',hdev',hle⟩
    · omega
    · have hflo' := generationFloor_of_mem huni' hmem'
      rw [hlic',hdev'] at hflo'
      omega

variable {rows : List ActivationRow}

/-- A row update that keeps licence and device and never lowers a generation
keeps every key with at least its generation. -/
theorem updateWhere_survives {p : ActivationRow → Bool}
    {f : ActivationRow → ActivationRow} (hlic : ∀ row, (f row).licenseId=row.licenseId)
    (hdev : ∀ row, (f row).deviceIdHash=row.deviceIdHash)
    (hgen : ∀ row, row.generation≤(f row).generation) (hrow : row∈rows) :
    ∃ row'∈updateWhere p f rows, row'.licenseId=row.licenseId ∧
      row'.deviceIdHash=row.deviceIdHash∧row.generation≤row'.generation := by
  cases hp : p row with
  | true => exact ⟨f row,mem_updateWhere.mpr (.inl ⟨row,hrow,hp,rfl⟩),hlic row,hdev row,hgen row⟩
  | false => exact ⟨row,mem_updateWhere.mpr (.inr ⟨hrow,hp⟩),rfl,rfl,le_refl _⟩

/-- The request deletes no row whose generation was ever raised. -/
def KeepsGenerations (engine : Engine) (db : Database) (action : Action) : Prop :=
  ∀ row∈db.activations, deletionTarget engine action row=true → row.generation=0

/-- No effect lowers a floor unless it deletes a raised generation. -/
theorem Effect.survives {answer : Outcome} (heff : Effect engine db action answer rows)
    (hkee : KeepsGenerations engine db action) (hrow : row∈db.activations) :
    row.generation=0∨∃ row'∈rows, row'.licenseId=row.licenseId ∧
      row'.deviceIdHash=row.deviceIdHash∧row.generation≤row'.generation := by
  cases heff with
  | idle => exact .inr ⟨row,hrow,rfl,rfl,le_refl _⟩
  | rewritten hrew =>
    exact .inr (updateWhere_survives (fun r => (hrew.columns r).2.1)
      (fun r => (hrew.columns r).2.2.1) (fun r => (hrew.columns r).2.2.2.1.ge) hrow)
  | inserted => exact .inr ⟨row,mem_append_left _ hrow,rfl,rfl,le_refl _⟩
  | renewed | restored =>
    refine .inr (updateWhere_survives ?_ ?_ ?_ hrow)
    · exact fun _ => rfl
    · exact fun _ => rfl
    · exact fun _ => le_refl _
  | tombstoned hf =>
    exact .inr (updateWhere_survives hf.licenseId hf.deviceIdHash
      (fun r => by rw [hf.generation r]; omega) hrow)
  | deleted =>
    cases hdel : deletionTarget engine action row with
    | true => exact .inl (hkee row hrow hdel)
    | false => exact .inr ⟨row,mem_deleteWhere.mpr ⟨hrow,hdel⟩,rfl,rfl,le_refl _⟩

theorem step_generationFloor_le (huni : UniqueRows db.activations)
    (hkee : KeepsGenerations engine db action) (licenseId device : String) :
    generationFloor db licenseId device ≤
      generationFloor (step engine db action).2 licenseId device := by
  apply generationFloor_le (step_unique engine huni action)
  intro row hrow hlic hdev
  have hsur := Effect.survives (step_effect engine huni action) hkee hrow
  rwa [hlic,hdev] at hsur

/-- The event revoked or removed the device: its row was a target of a remote
revocation, an offline removal or a StoreKit revoke. -/
def Tombstones (licenseId device : String) (e : Event Database Action Outcome) : Prop :=
  ∃ row∈e.before.activations, row.licenseId=licenseId∧row.deviceIdHash=device ∧
    tombstoneTarget e.before e.action row=true

/-- A revocation or removal raises the floor of its device. -/
theorem generationFloor_lt_of_tombstones (huni : UniqueRows db.activations)
    (h : Tombstones licenseId device (perform (step engine) db action)) :
    generationFloor db licenseId device <
      generationFloor (step engine db action).2 licenseId device := by
  obtain ⟨row,hrow,hlic,hdev,htgt⟩ := h
  simp only [perform] at hrow htgt
  obtain ⟨f,hf,hrs⟩ := step_tombstones engine htgt
  have haft : f row∈(step engine db action).2.activations := by
    rw [hrs]
    exact mem_updateWhere.mpr (.inl ⟨row,hrow,htgt,rfl⟩)
  have hflo := generationFloor_of_mem huni hrow
  have hflo' := generationFloor_of_mem (step_unique engine huni action) haft
  rw [hf.licenseId,hf.deviceIdHash,hf.generation] at hflo'
  rw [hlic,hdev] at hflo hflo'
  omega

/-- Licence and device for which a request would hand out a lease. -/
def leaseKey (engine : Engine) (db : Database) : Action → Option (String×String)
  | .issueDeviceLease _ _ input =>
    (lockLicense db input.storeId input.appKey input.licenseKey).map fun lic =>
      (lic.id,input.deviceIdHash)
  | .renewDeviceLease now _ input =>
    match admitRenewal engine db now input with
    | .ok (row,_) => some (row.licenseId,input.deviceIdHash)
    | .error _ => none
  | _ => none

/-- The event handed out a lease of that generation to the licence and
device. -/
def Leases (engine : Engine) (licenseId device : String) (generation : ℕ)
    (e : Event Database Action Outcome) : Prop :=
  leaseKey engine e.before e.action=some (licenseId,device) ∧
    ∃ core, leaseOf e.result=some core∧core.generation=generation

/-- A lease carries the floor that its request met. -/
theorem generation_eq_floor (huni : UniqueRows db.activations) {generation : ℕ}
    (h : Leases engine licenseId device generation (perform (step engine) db action)) :
    generation=generationFloor db licenseId device := by
  obtain ⟨hkey,core,hcor,rfl⟩ := h
  simp only [perform] at hkey hcor
  have heff := step_effect engine huni action
  generalize (step engine db action).1=answer at heff hcor
  generalize (step engine db action).2.activations=rows at heff
  cases heff with
  | idle hans => simp [hans] at hcor
  | rewritten hch hrow _ hlea | inserted hch hrow _ hlea =>
    simp only [hcor,Option.map_some] at hlea
    cases hch with
    | lease hpl =>
      have hlk := (lockActiveLicense_spec (admitLease_ok hpl).found).1
      simp only [leaseKey,hlk,Option.map_some,Option.some.injEq,Prod.mk.injEq] at hkey
      simp only [Option.map_some,Option.some.injEq,Prod.mk.injEq] at hlea
      rw [hlea.2,generationFloor,← hkey.1,← hkey.2,hrow]
      rfl
    | activation | link => simp at hlea
  | @renewed now fresh input row lic hact hpl hlea =>
    subst hact
    have hok := admitRenewal_ok hpl
    simp only [hcor,Option.map_some,Option.some.injEq,Prod.mk.injEq] at hlea
    simp only [leaseKey,hpl,Option.some.injEq,Prod.mk.injEq] at hkey
    rw [hlea.2,← hkey.1,← hkey.2,← hok.device]
    exact (generationFloor_of_mem huni hok.found).symm
  | tombstoned _ hans | restored hans | deleted hans => simp [hans] at hcor

/-- Generations are monotone per licence and device along every run that
deletes no raised row, and every lease after a revocation or removal carries
a strictly larger generation than every lease before it. -/
theorem lease_generations_monotone (engine : Engine) (start : Database)
    (hstart : UniqueRows start.activations)
    {h₁ h₂ h₃ : List (Event Database Action Outcome)} {e₁ e₂ : Event Database Action Outcome}
    {s : Database}
    (hrun : Run (step engine) (fun _ db action => KeepsGenerations engine db action) start
      (h₁++e₁::(h₂++e₂::h₃)) s)
    {licenseId device : String} {g₁ g₂ : ℕ} (hfirst : Leases engine licenseId device g₁ e₁)
    (hsecond : Leases engine licenseId device g₂ e₂) :
    g₁≤g₂∧((∃ t∈h₂, Tombstones licenseId device t) → g₁<g₂) := by
  have huni : ∀ {h s}, Run (step engine) (fun _ db action => KeepsGenerations engine db action)
      start h s → UniqueRows s.activations := fun hpre =>
    Run.state_invariant (P := fun db => UniqueRows db.activations) hpre hstart
      fun _ _ action hdb _ => step_unique engine hdb action
  have hspl : Run (step engine) (fun _ db action => KeepsGenerations engine db action) start
      ((h₁++e₁::h₂)++e₂::h₃) s := by simpa using hrun
  obtain ⟨hrun₁,-,hevent₁⟩ := Run.split hrun
  obtain ⟨hrun₂,-,hevent₂⟩ := Run.split hspl
  have hg₁ : g₁=generationFloor e₁.before licenseId device :=
    generation_eq_floor (huni hrun₁) (hevent₁ ▸ hfirst)
  have hg₂ : g₂=generationFloor e₂.before licenseId device :=
    generation_eq_floor (huni hrun₂) (hevent₂ ▸ hsecond)
  have hbet := Run.measure_between (P := fun db => UniqueRows db.activations)
    (μ := fun db => generationFloor db licenseId device) hrun hstart
    fun _ _ action hdb hkee => ⟨step_unique engine hdb action,
      step_generationFloor_le hdb hkee licenseId device⟩
  rw [hg₁,hg₂]
  refine ⟨hbet.1,?_⟩
  rintro ⟨t,ht,htom⟩
  refine hbet.2 ⟨t,ht,?_⟩
  obtain ⟨a,b,rfl⟩ := append_of_mem ht
  have hmid : Run (step engine) (fun _ db action => KeepsGenerations engine db action) start
      ((h₁++e₁::a)++t::(b++e₂::h₃)) s := by simpa using hrun
  obtain ⟨hrunt,-,heve⟩ := Run.split hmid
  have hrai := generationFloor_lt_of_tombstones (huni hrunt) (heve ▸ htom)
  rw [heve]
  exact hrai

/-- Issue, revoke and re-issue for one device. -/
def sampleReissue : List Action :=
  [.issueDeviceLease 0 ⟨"act-1", "token-1", "lease-1"⟩ (sampleIssue "mac-a" "macos"),
    .revokeDeviceRemote 1 "store-1" "lic-1" "act-1",
    .issueDeviceLease 2 ⟨"act-2", "token-2", "lease-2"⟩ (sampleIssue "mac-a" "macos")]

/-- The law at a run that revokes a device and leases to it again. -/
theorem lease_generations_monotone_reissue : ∃ e₁ t e₂ s g₁ g₂,
      Run (step sampleEngine) (fun _ db action => KeepsGenerations sampleEngine db action)
        sampleStart ([]++e₁::([t]++e₂::[])) s ∧
      Leases sampleEngine "lic-1" "mac-a" g₁ e₁∧Tombstones "lic-1" "mac-a" t ∧
      Leases sampleEngine "lic-1" "mac-a" g₂ e₂∧g₁<g₂ := by
  have hkee : ∀ db action, (∀ row, deletionTarget sampleEngine action row=false) →
      KeepsGenerations sampleEngine db action := by
    intro db action hno row _ htgt
    simp [hno row] at htgt
  have hrun : Run (step sampleEngine) (fun _ db action => KeepsGenerations sampleEngine db action)
      sampleStart _ _ := .play Run.nil sampleReissue
    ⟨hkee _ _ fun _ => rfl,hkee _ _ fun _ => rfl,hkee _ _ fun _ => rfl,trivial⟩
  have hfst : Leases sampleEngine "lic-1" "mac-a" 0 (perform (step sampleEngine) sampleStart
      (.issueDeviceLease 0 ⟨"act-1", "token-1", "lease-1"⟩ (sampleIssue "mac-a" "macos"))) :=
    ⟨rfl,_,rfl,rfl⟩
  have hlaw := @lease_generations_monotone sampleEngine sampleStart (by decide) [] [_] [] _ _ _
    hrun _ _ _ _ hfst ⟨rfl,_,rfl,rfl⟩
  have htom : Tombstones "lic-1" "mac-a" (perform (step sampleEngine)
      (step sampleEngine sampleStart (.issueDeviceLease 0 ⟨"act-1", "token-1", "lease-1"⟩
        (sampleIssue "mac-a" "macos"))).2 (.revokeDeviceRemote 1 "store-1" "lic-1" "act-1")) :=
    ⟨_,mem_cons_self,rfl,rfl,rfl⟩
  exact ⟨_,_,_,_,0,1,hrun,hfst,htom,⟨rfl,_,rfl,rfl⟩,hlaw.2 ⟨_,mem_cons_self,htom⟩⟩

/-- The same device, deactivated after its re-issue and leased a third time. -/
def sampleDeletion : List Action := sampleReissue++[.deactivateDevice "app" "token-2",
    .issueDeviceLease 4 ⟨"act-3", "token-3", "lease-3"⟩ (sampleIssue "mac-a" "macos")]

/-- Deleting a raised row lets a later lease carry a smaller generation than
one before it. -/
theorem lease_generations_fall_after_deletion :
    ¬ ∀ (engine : Engine) (start : Database), UniqueRows start.activations →
      ∀ (h₁ h₂ h₃ : List (Event Database Action Outcome)) (e₁ e₂ : Event Database Action Outcome)
        (s : Database),Run (step engine) (fun _ _ _ => True) start (h₁++e₁::(h₂++e₂::h₃)) s →
      ∀ (licenseId device : String) (g₁ g₂ : ℕ), Leases engine licenseId device g₁ e₁ →
        Leases engine licenseId device g₂ e₂ →
        g₁≤g₂∧((∃ t∈h₂, Tombstones licenseId device t) → g₁<g₂) := by
  intro hall
  have hrun : Run (step sampleEngine) (fun _ _ _ => True) sampleStart _ _ :=
    Run.play Run.nil sampleDeletion ⟨trivial,trivial,trivial,trivial,trivial,trivial⟩
  have hfal := hall sampleEngine sampleStart (by decide) [_,_] [_] [] _ _ _ hrun "lic-1" "mac-a"
    1 0 ⟨rfl,_,rfl,rfl⟩ ⟨rfl,_,rfl,rfl⟩
  exact absurd hfal.1 (by decide)

end SellRight.LicenseGeneration
