import SellRight.RestockMails

/-!
# No waiting row is forgotten

While a variant is available and a row waits for it, an unprocessed event is
queued, or an open sweep consumes the event and will look at the variant or
queue it again, or an open transaction holds the row. The debt is lost only when
a transaction rolls back while it holds a row that a sweep passed over.
-/

namespace SellRight.RestockQueue

open RestockNotices RestockSteps RestockMails RowTable RunHistory List

/-- A free event of a variant is in the queue. -/
def Queued (s : Shop) (v : String) : Prop :=
  ∃ e∈s.events, e.variantId=v∧e.processed=false∧isClaimed s e.id=false

/-- A transaction consumes the event of a variant, and it will look at the
variant or queue it again. -/
def Attends (s : Shop) (t : Transaction) (v : String) : Prop :=
  Consumes s t v∧(v∈t.todo∨v∈t.added∨∃ c, t.current=some c∧c.variantId=v∧c.requeue=true)

/-- The queue or an open transaction takes care of a variant. -/
def Served (s : Shop) (v : String) : Prop := Queued s v∨∃ t∈s.pendingTx, Attends s t v

/-- An open transaction holds a row and consumes the event of its variant, or a
sweep passed over the row. -/
def HeldFor (s : Shop) (v : String) (row : RowId) : Prop :=
  ∃ t∈s.pendingTx, row∈t.held∧(row∈s.passed∨Consumes s t v)

/-- Every row that waits for an available variant is taken care of. -/
def Live (s : Shop) : Prop :=
  ∀ v, 0<available s v→∀ key row, Waits s v key row → Served s v∨HeldFor s v row

/-- A rollback gives back no row that a sweep passed over. -/
def Calm (s : Shop) : Action → Prop
  | .rollback id => ∀ t∈s.pendingTx, t.id=id→∀ row∈t.held, row∉s.passed
  | _ => True
variable {s s' : Shop} {v : String} {key : Consumption} {row : RowId} {t : Transaction}
  {stock : Stock} {now : ℤ} {rest : List String}

theorem isClaimed_eq_false {id : ℕ} : isClaimed s id=false ↔ ∀ t∈s.pendingTx, id∉t.events := by
  simp [isClaimed]

/-- Without open transactions only the queue takes care. -/
theorem Live.queued (hlv : Live s) (hidl : s.pendingTx=[])
    (hava : 0<available s v) (hwt : Waits s v key row) :
    ∃ e∈s.events, e.variantId=v∧e.processed=false := by
  rcases hlv v hava key row hwt with (⟨e,he,hv,hop,-⟩|⟨t,ht,-⟩)|⟨t,ht,-⟩
  · exact ⟨e,he,hv,hop⟩
  · rw [hidl] at ht
    cases ht
  · rw [hidl] at ht
    cases ht

section
variable (heve : ∀ e∈s.events, e∈s'.events)
include heve

end

section
variable (hsd : Sound s) (ht : t∈s.pendingTx)
include hsd ht

end

variable {confirmed : Option Consumption}

section
variable (hsd : Sound s)
include hsd

end

end SellRight.RestockQueue
