import SellRight.RestockSteps

/-!
# Restock notices are one-shot

Mails of a request or a signup are counted over the outbox and the open
transactions: a mail is recorded exactly when the last waiting row of its key is
taken, so the count stays within one more than the confirmations of such rows.
-/

namespace SellRight.RestockMails

open RestockNotices RestockSteps RowTable RunHistory List

def countOf (key : Consumption) (mails : List Mail) : ℕ := mails.countP fun m => decide (m.unit=key)

/-- Mails that consume a key, in the outbox or in an open transaction. -/
def total (s : Shop) (key : Consumption) : ℕ :=
  countOf key s.mails+(s.pendingTx.map fun t => countOf key t.mails).sum

/-- A held row belongs to the variant that its transaction has not finished. -/
def InCurrent (t : Transaction) (row : RowId) : Prop :=
  ∃ c, t.current=some c∧∃ r∈c.rows, row=.subscriber r.id

/-- A transaction has taken a row for good. -/
def Spent (s : Shop) (row : RowId) : Prop := ∃ t∈s.pendingTx, row∈t.held∧¬ InCurrent t row

/-- Some row of a key waits and is not taken. -/
def Open (s : Shop) (key : Consumption) : Prop := ∃ v row, Waits s v key row∧¬ Spent s row

/-- Mails of a key are within one more than a number, and within that number
while a row of the key may still be mailed. -/
def Within (s : Shop) (key : Consumption) (n : ℕ) : Prop :=
  total s key≤1+n∧(Open s key→total s key≤n)

/-- Facts about the mails of open transactions. -/
structure Mailed (s : Shop) : Prop where
  taken : ∀ t∈s.pendingTx, ∀ row∈t.held, ¬ InCurrent t row→∀ v key, Waits s v key row →
    0<countOf key t.mails
  /-- A mail of an open transaction goes to a row that waits under its key. -/
  keyed : ∀ t∈s.pendingTx, ∀ m∈t.mails, ∃ v, Waits s v m.unit m.row
  known : ∀ m∈s.mails, ∀ id, m.unit=.request id→∃ r∈s.requests, r.id=id

variable {s s' : Shop} {v : String} {key : Consumption} {row : RowId} {t : Transaction} {n : ℕ}
  {confirmed : Option Consumption} {rest : List String} {c : Current}

/-- Only rows decide what waits. -/
theorem waits_congr (hreq : s'.requests=s.requests) (hsub : s'.subscribers=s.subscribers) :
    Waits s' v key row ↔ Waits s v key row := by
  cases row with
  | request => simp only [Waits,hreq]
  | subscriber => simp only [Waits,hsub]

/-- Fewer rows are open when fewer wait and no taken row is given back. -/
theorem Open.mono (hwt : ∀ v row, Waits s' v key row →
      Waits s v key row∧(Spent s row → Spent s' row)) (hop : Open s' key) : Open s key := by
  obtain ⟨v,row,hrow,hfr⟩ := hop
  obtain ⟨hold,hsp⟩ := hwt v row hrow
  exact ⟨v,row,hold,fun h => hfr (hsp h)⟩

theorem Within.mono (h : Within s key n)
    (htot : total s' key=total s key) (hwt : ∀ v row, Waits s' v key row →
      Waits s v key row∧(Spent s row → Spent s' row)) : Within s' key n := by
  refine ⟨htot ▸ h.1,fun hop => ?_⟩
  rw [htot]
  exact h.2 (hop.mono hwt)

/-- Stock, events and passed rows do not matter to the count. -/
theorem Within.same (h : Within s key n)
    (hreq : s'.requests=s.requests) (hsub : s'.subscribers=s.subscribers)
    (htx : s'.pendingTx=s.pendingTx) (hmai : s'.mails=s.mails) : Within s' key n := by
  refine h.mono (by simp only [total,htx,hmai]) fun v row hrow => ⟨?_,fun hsp => ?_⟩
  · exact (waits_congr hreq hsub).mp hrow
  · simpa only [Spent,htx] using hsp

/-- A transaction that goes on keeps the facts about mails. -/
theorem Mailed.setTx (hmai : Mailed s) (t' : Transaction)
    (htk : ∀ row∈t'.held, ¬ InCurrent t' row→∀ v key, Waits s v key row → 0<countOf key t'.mails)
    (hkey : ∀ m∈t'.mails, ∃ v, Waits s v m.unit m.row) : Mailed (RestockNotices.setTx s t') := by
  constructor
  · intro t ht row hrow hnot v key hwt
    have hold := (waits_congr (s := s) rfl rfl).mp hwt
    rcases mem_setTx ht with rfl|⟨hmem,-⟩
    · exact htk row hrow hnot v key hold
    · exact hmai.taken t hmem row hrow hnot v key hold
  · intro t ht m hm
    have hold : ∃ v, Waits s v m.unit m.row := by
      rcases mem_setTx ht with rfl|⟨hmem,-⟩
      · exact hkey m hm
      · exact hmai.keyed t hmem m hm
    obtain ⟨v,hwt⟩ := hold
    exact ⟨v,(waits_congr (by rfl) (by rfl)).mpr hwt⟩
  · exact hmai.known

/-- Stock, events and passed rows do not matter to the mails. -/
theorem Mailed.same (hmai : Mailed s) (hreq : s'.requests=s.requests)
    (hsub : s'.subscribers=s.subscribers) (htx : s'.pendingTx=s.pendingTx)
    (hmails : s'.mails=s.mails) : Mailed s' := by
  constructor
  · intro t ht row hrow hnot v key hwt
    exact hmai.taken t (htx ▸ ht) row hrow hnot v key ((waits_congr hreq hsub).mp hwt)
  · intro t ht m hm
    obtain ⟨v,hwt⟩ := hmai.keyed t (htx ▸ ht) m hm
    exact ⟨v,(waits_congr hreq hsub).mpr hwt⟩
  · rw [hmails,hreq]
    exact hmai.known

end SellRight.RestockMails
