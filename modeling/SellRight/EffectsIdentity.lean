import SellRight.EffectsFencing

/-!
# Identities of recorded operations and effects

An operation is recorded once, and it has at most one effect of each kind. No
step of an inline pass adds an operation or stores an identity twice.
-/

namespace SellRight.EffectsIdentity

open EffectsEngine EffectsFencing RowTable

/-- Identities of the stored effects. -/
def identities (db : Database) : List (Operation×EffectKind) :=
  db.rows.map fun row => (row.operation,row.effectKind)

/-- The operations stay and distinct identities stay distinct. -/
structure KeepsIdentities (db next : Database) : Prop where
  operations : next.operations=db.operations
  distinct : (identities db).Nodup→(identities next).Nodup

variable {db middle next : Database}

theorem KeepsIdentities.refl (db : Database) : KeepsIdentities db db := ⟨rfl,id⟩

theorem KeepsIdentities.trans (hfst : KeepsIdentities db middle)
    (hsec : KeepsIdentities middle next) : KeepsIdentities db next :=
  ⟨hsec.operations.trans hfst.operations,hsec.distinct ∘ hfst.distinct⟩

theorem keepsIdentities_write {p : EffectRow → Bool} {f : EffectRow → EffectRow}
    (hrs : next.rows=updateWhere p f db.rows) (hope : next.operations=db.operations)
    (heq : ∀ cur, (f cur).operation=cur.operation∧(f cur).effectKind=cur.effectKind) :
    KeepsIdentities db next := by
  refine ⟨hope,fun hnod => ?_⟩
  rw [identities,hrs,map_updateWhere]
  · exact hnod
  · intro row _
    rw [(heq row).1,(heq row).2]

theorem enqueueEffect_identities (now : ℤ) (op : Operation) (req : EffectRequest)
    (db : Database) : KeepsIdentities db (enqueueEffect now op db req) := by
  unfold enqueueEffect
  split
  · exact .refl db
  · next hnew =>
    have hsto : (identities db).Nodup→((db.rows++[newRow now op req db.nextId]).map
          fun row => (row.operation,row.effectKind)).Nodup := by
      intro hnod
      apply nodup_map_append _ hnod
      intro old hold heq
      apply hnew
      rw [List.any_eq_true]
      exact ⟨old,hold,decide_eq_true (Prod.mk.inj heq)⟩
    split
    · exact ⟨rfl,hsto⟩
    · exact ⟨rfl,hsto⟩

theorem enqueueEffects_identities (now : ℤ) (op : Operation) (requests : List EffectRequest)
    (db : Database) : KeepsIdentities db (enqueueEffects now op db requests) := by
  induction requests generalizing db with
  | nil => exact .refl db
  | cons req _ ih =>
    exact (enqueueEffect_identities now op req db).trans (ih (enqueueEffect now op db req))

theorem applyOutcome_identities {now : ℤ} {row : EffectRow} {outcome : EffectOutcome}
    {result : ProcessResult} (hwri : applyOutcome db now row outcome=some (result,next)) :
    KeepsIdentities db next := by
  obtain ⟨⟨-,f,announced,reviews,hf,-,rfl⟩,-⟩ := applyOutcome_writes hwri
  have hwrit : KeepsIdentities db {db with
      rows := updateWhere (claimedBy row) f db.rows,announced := announced} :=
    keepsIdentities_write rfl rfl fun cur => ⟨(hf cur).1.2.1.symm,(hf cur).1.2.2.symm⟩
  exact hwrit.trans (enqueueEffects_identities now row.operation reviews _)

theorem executeRows_identities {registry : Registry} {now : ℤ} {outcomes : ℕ → HandlerRun}
    (rows : List EffectRow) {s next : Inline}
    (hrun : executeRows registry now outcomes s rows=(next,false)) :
    KeepsIdentities s.db next.db := by
  refine executeRows_related KeepsIdentities.refl KeepsIdentities.trans ?_
    applyOutcome_identities rows hrun
  intro db row
  exact keepsIdentities_write rfl rfl fun _ => ⟨rfl,rfl⟩

theorem identities_once (hnod : (identities db).Nodup) (op : Operation) (kind : EffectKind) :
    db.rows.countP (fun row => decide (row.operation=op∧row.effectKind=kind))≤1 := by
  have hct := countP_key_le_one (fun row : EffectRow => (row.operation,row.effectKind))
    (op,kind) (fun _ => true) hnod
  refine le_trans (List.countP_mono_left fun row _ hrow => ?_) hct
  obtain ⟨hop,hkd⟩ := of_decide_eq_true hrow
  simp [hop,hkd]

end SellRight.EffectsIdentity
