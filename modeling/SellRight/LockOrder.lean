import Mathlib.Tactic

/-!
# Locks requested in one global order

Each holder requests its locks one after another and keeps what it was granted
until it ends. One holder waits for another when the lock it requests next is
among those the other was granted. Holders whose requests climb one strict
order of the keys never wait in a cycle.
-/

namespace SellRight.LockOrder

open List

variable {κ ι : Type*}

/-- Progress of one holder through its requests. -/
structure Holder (κ : Type*) where
  requests : List κ
  granted : ℕ

/-- Locks a holder was granted and has not given back. -/
def Holder.held (holder : Holder κ) : List κ := holder.requests.take holder.granted

/-- Lock a holder requests now; none once it was granted all of them. -/
def Holder.awaited (holder : Holder κ) : Option κ := holder.requests[holder.granted]?

/-- The first holder requests a lock that the second one holds. -/
def WaitsFor (waiting blocking : Holder κ) : Prop :=
  ∃ key, waiting.awaited=some key∧key∈blocking.held

/-- A holder that climbs requests next what lies above all it holds. -/
theorem held_lt_awaited [Preorder κ] {holder : Holder κ}
    (hcli : holder.requests.Pairwise (· < ·)) {key next : κ}
    (hhd : key∈holder.held) (hnx : holder.awaited=some next) : key<next := by
  obtain ⟨hbou,hget⟩ := List.getElem?_eq_some_iff.mp hnx
  have hspl : holder.requests=holder.held++next::holder.requests.drop (holder.granted+1) := by
    rw [← hget,Holder.held]
    exact (take_append_drop holder.granted holder.requests).symm.trans
      (by rw [drop_eq_getElem_cons hbou])
  rw [hspl] at hcli
  exact (pairwise_append.mp hcli).2.2 key hhd next mem_cons_self

section
variable [Preorder κ] {holde : ι → Holder κ} (hcli : ∀ i, (holde i).requests.Pairwise (· < ·))
include hcli

/-- Along a chain of waits the requested locks rise. -/
theorem awaited_rises {i j : ι}
    (hcha : Relation.TransGen (fun a b => WaitsFor (holde a) (holde b)) i j) :
    ∃ key, (holde i).awaited=some key∧∀ next, (holde j).awaited=some next→key<next := by
  induction hcha with
  | single hwai =>
    obtain ⟨key,hkey,hhd⟩ := hwai
    exact ⟨key,hkey,fun next hnx => held_lt_awaited (hcli _) hhd hnx⟩
  | tail _ hwai ih =>
    obtain ⟨key,hkey,hris⟩ := ih
    obtain ⟨middle,hmid,hhd⟩ := hwai
    have hbel : key < middle := hris middle hmid
    exact ⟨key,hkey,fun next hnx => lt_trans hbel (held_lt_awaited (hcli _) hhd hnx)⟩

/-- Holders that request their locks in one strict order never wait in a
cycle. -/
theorem no_waiting_cycle (i : ι) :
    ¬ Relation.TransGen (fun a b => WaitsFor (holde a) (holde b)) i i := by
  intro hcyc
  obtain ⟨key,hkey,hris⟩ := awaited_rises hcli hcyc
  exact lt_irrefl key (hris key hkey)

end

end SellRight.LockOrder
