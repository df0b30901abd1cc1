import SellRight.LoyaltyLedger

/-!
# Expiry of loyalty points

The lot accounting that decides how many points have expired without being
written off. Writing them off changes nothing a customer can spend, now or after
any later rows: a debit takes the same lots with and without the write-off.
-/

namespace SellRight.LoyaltyExpiry

open LoyaltyLedger (LoyaltyKind LoyaltyRow SourceRef insertRow postExpiry)
open List

/-- What the accounting reads of a ledger row. -/
structure LedgerEntry where
  kind : LoyaltyKind
  points : ℤ
  expiresAt : Option ℤ
  createdAt : ℤ

/-- Points of a credit that are left. -/
structure Lot where
  remaining : ℤ
  expiresAt : Option ℤ
  deriving DecidableEq

def hasExpired (now : ℤ) (expiresAt : Option ℤ) : Bool := expiresAt.any fun x => x≤now

def notExpired (now : ℤ) (expiresAt : Option ℤ) : Bool := !hasExpired now expiresAt

/-- Sooner expiry; a lot that never expires comes last. -/
def sooner : Option ℤ→Option ℤ→Bool
  | _,none => true
  | none,some _ => false
  | some x,some y => x≤y

def expiryOf (lots : List Lot) (i : ℕ) : Option ℤ := (lots[i]?).bind Lot.expiresAt

/-- Indices of the lots left that meet a condition, soonest expiry first. -/
def pick (p : Option ℤ→Bool) (lots : List Lot) : List ℕ :=
  ((range lots.length).filter fun i =>
    (lots[i]?).any fun l => decide (0<l.remaining)&&p l.expiresAt).insertionSort
    fun i j => sooner (expiryOf lots i) (expiryOf lots j)

/-- Take points from lots in turn and return what could not be taken. -/
def drain : List ℕ→ℤ→ List Lot→ List Lot×ℤ
  | [],left,lots => (lots,left)
  | i::rest,left,lots =>
    if left≤0 then (lots,left)
    else
      match lots[i]? with
      | none => drain rest left lots
      | some lot =>
        let take := min lot.remaining left
        drain rest (left-take) (lots.set i ⟨lot.remaining-take,lot.expiresAt⟩)

def consume (lots : List Lot) (amount now : ℤ) (expiredOnly : Bool) : List Lot :=
  if expiredOnly then (drain (pick (hasExpired now) lots) amount lots).1
  else (drain (pick (notExpired now) lots++pick (fun _ => true) lots) amount lots).1

def postEntry (lots : List Lot) (e : LedgerEntry) : List Lot :=
  if 0<e.points then lots++[⟨e.points,e.expiresAt⟩]
  else if e.points<0 then consume lots (-e.points) e.createdAt (decide (e.kind=.expire))
  else lots

def lotsOf (entries : List LedgerEntry) : List Lot := entries.foldl postEntry []

/-- Points of the lots whose expiry meets a condition. -/
def pointsWhere (p : Option ℤ→Bool) (lots : List Lot) : ℤ :=
  (lots.map fun l => if p l.expiresAt then l.remaining else 0).sum

/-- Points expired by a time that no row has written off. -/
def unpostedExpiredPoints (entries : List LedgerEntry) (now : ℤ) : ℤ :=
  pointsWhere (hasExpired now) (lotsOf entries)

def ledgerSum (entries : List LedgerEntry) : ℤ := (entries.map LedgerEntry.points).sum

structure LoyaltyBalance where
  balance : ℤ
  pendingExpiry : ℤ
  available : ℤ

section
variable (entries : List LedgerEntry) (now : ℤ)

/-- The balance by replaying the rows. -/
def replayedBalance : LoyaltyBalance :=
  let balance := ledgerSum entries
  let pendingExpiry := min (max 0 balance) (unpostedExpiredPoints entries now)
  ⟨balance,pendingExpiry,max 0 (balance-pendingExpiry)⟩

/-- Credit rows expired by a time. -/
def expiredCredits : ℕ :=
  entries.countP fun e => decide (0<e.points)&&hasExpired now e.expiresAt

/-- The balance; the rows are replayed only when a credit has expired. -/
def loyaltyBalance : LoyaltyBalance :=
  if expiredCredits entries now=0 then ⟨ledgerSum entries,0,max 0 (ledgerSum entries)⟩
  else replayedBalance entries now

/-- The row that writes expired points off. -/
def expireRow : LedgerEntry :=
  ⟨.expire,-unpostedExpiredPoints entries now,none,now⟩

/-- Points a customer can spend. -/
def spendable : ℤ :=
  ledgerSum entries-unpostedExpiredPoints entries now

end

/-- A debit other than a write-off is at most the unexpired points at its time. -/
def Covered (lots : List Lot) (e : LedgerEntry) : Prop :=
  e.points<0→e.kind≠.expire→-e.points≤pointsWhere (notExpired e.createdAt) lots

/-- A write-off is at most the expired points at its time. -/
def WrittenOff (lots : List Lot) (e : LedgerEntry) : Prop :=
  e.points<0→e.kind=.expire→-e.points≤pointsWhere (hasExpired e.createdAt) lots

/-- Every row of a replay meets a condition on the lots before it. -/
def Throughout (ok : List Lot → LedgerEntry→Prop) : List Lot→ List LedgerEntry→Prop
  | _,[] => True
  | lots,e::entries => ok lots e∧Throughout ok (postEntry lots e) entries

/-- A ledger in posting order whose rows meet a condition. -/
def WellFormed (ok : List Lot → LedgerEntry→Prop) (entries : List LedgerEntry) : Prop :=
  entries.Pairwise (fun a b => a.createdAt≤b.createdAt)∧Throughout ok [] entries

/-- Debits are covered and write-offs take points that have expired. -/
def Posted (lots : List Lot) (e : LedgerEntry) : Prop := Covered lots e∧WrittenOff lots e

def Nonneg (lots : List Lot) : Prop := ∀ l∈lots,0≤l.remaining

variable {p : Option ℤ→Bool} {lots lots' : List Lot} {now left u : ℤ} {l : Lot} {is : List ℕ}
  {e : LedgerEntry} {entries : List LedgerEntry}

theorem pointsWhere_nonneg (h : Nonneg lots) :
    0≤pointsWhere p lots := by
  refine sum_nonneg fun x hx => ?_
  obtain ⟨l,hl,rfl⟩ := mem_map.mp hx
  split_ifs
  · exact h l hl
  · exact le_rfl

theorem pointsWhere_cons (p : Option ℤ→Bool) (l : Lot) (lots : List Lot) :
    pointsWhere p (l::lots)=(if p l.expiresAt=true then l.remaining else 0)+pointsWhere p lots := rfl

theorem notExpired_iff {x : Option ℤ} : notExpired now x=true ↔ ¬hasExpired now x=true := by
  rw [notExpired,Bool.not_eq_true',Bool.not_eq_true]

/-- Expired and unexpired points are all points. -/
theorem pointsWhere_split (now : ℤ) (lots : List Lot) :
    pointsWhere (hasExpired now) lots+pointsWhere (notExpired now) lots =
      pointsWhere (fun _ => true) lots := by
  induction lots with
  | nil => rfl
  | cons l =>
    rw [pointsWhere_cons,pointsWhere_cons,pointsWhere_cons,if_pos rfl]
    by_cases hx : hasExpired now l.expiresAt=true
    · rw [if_pos hx,if_neg fun hn => notExpired_iff.mp hn hx]
      omega
    · rw [if_neg hx,if_pos (notExpired_iff.mpr hx)]
      omega

theorem map_set_same {β : Type*} {f : Lot→β} {i : ℕ} {new : Lot}
    (hl : lots[i]?=some l) (hf : f new=f l) : (lots.set i new).map f=lots.map f := by
  obtain ⟨hlt,rfl⟩ := List.getElem?_eq_some_iff.mp hl
  have hself := @set_getElem_self _ (lots.map f) i (by rwa [length_map])
  rw [getElem_map] at hself
  rw [map_set,hf,hself]

theorem pointsWhere_set : ∀ {i : ℕ} {l : Lot} {r : ℤ},
    lots[i]?=some l→pointsWhere p (lots.set i ⟨r,l.expiresAt⟩) =
      pointsWhere p lots-if p l.expiresAt then l.remaining-r else 0 := by
  induction lots with
  | nil => exact fun h => by cases h
  | cons _ _ ih =>
    intro i l r h
    cases i with
    | zero =>
      cases h
      simp only [pointsWhere,set_cons_zero,map_cons,sum_cons]
      split_ifs <;> omega
    | succ i =>
      have hrest := @ih i l r h
      simp only [pointsWhere,set_cons_succ,map_cons,sum_cons] at hrest ⊢
      omega

/-- What draining does: other lots stay, what it took is gone from the points of the
drained lots, and a lot is left over only when all that was asked for was taken. -/
structure Drained (is : List ℕ) (left : ℤ) (lots lots' : List Lot) (left' : ℤ) : Prop where
  others : ∀ i∉is,lots'[i]?=lots[i]?
  nonneg : Nonneg lots'
  unspent : 0≤left'
  taken : ∀ p,(∀ i∈is,∀ l,lots[i]?=some l→p l.expiresAt=true)→
    pointsWhere p lots'=pointsWhere p lots-(left-left')
  emptied : left'=0∨∀ i∈is,∀ l,lots'[i]?=some l→l.remaining=0

theorem drain_done (h : left≤0) :
    drain is left lots=(lots,left) := by
  cases is with
  | nil => rfl
  | cons => rw [drain,if_pos h]

theorem drain_append {js : List ℕ} : ∀ {left : ℤ} {lots : List Lot},
    drain (is++js) left lots=drain js (drain is left lots).2 (drain is left lots).1 := by
  induction is with
  | nil => exact rfl
  | cons i _ ih =>
    intro left lots
    rw [cons_append,drain,drain]
    split_ifs with hz
    · rw [drain_done hz]
    cases lots[i]? with
    | none | some => exact ih

theorem drain_spec : ∀ {is : List ℕ} {left : ℤ} {lots : List Lot},0≤left→Nonneg lots→is.Nodup→
    Drained is left lots (drain is left lots).1 (drain is left lots).2 := by
  intro is
  induction is with
  | nil =>
    refine fun hle hnn _ => ⟨fun _ _ => rfl,hnn,hle,fun p _ => ?_,.inr nofun⟩
    dsimp only [drain]
    omega
  | cons i is ih =>
    intro left lots hle hnn hnd
    obtain ⟨hni,hnd⟩ := nodup_cons.mp hnd
    rw [drain]
    split_ifs with hz
    · exact ⟨fun _ _ => rfl,hnn,hle,fun p _ => by dsimp only; omega,.inl (le_antisymm hz hle)⟩
    cases hl : lots[i]? with
    | none =>
      have h := ih hle hnn hnd
      refine ⟨fun j hj => h.others j fun hm => hj (mem_cons_of_mem _ hm),h.nonneg,h.unspent,
        fun p hp => h.taken p fun j hj => hp j (mem_cons_of_mem _ hj),?_⟩
      refine h.emptied.imp_right fun he j hj l hjl => ?_
      rcases mem_cons.mp hj with rfl|hj
      · rw [h.others j hni,hl] at hjl
        cases hjl
      · exact he j hj l hjl
    | some lot =>
      dsimp only
      have hlt : i<lots.length := (List.getElem?_eq_some_iff.mp hl).1
      generalize htk : min lot.remaining left=take
      have hnn' : Nonneg (lots.set i ⟨lot.remaining-take,lot.expiresAt⟩) := by
        intro x hx
        rcases mem_or_eq_of_mem_set hx with hx|rfl
        · exact hnn x hx
        · dsimp only
          omega
      have h := @ih (left-take) _ (by omega) hnn' hnd
      have hself : (lots.set i ⟨lot.remaining-take,lot.expiresAt⟩)[i]? =
          some ⟨lot.remaining-take,lot.expiresAt⟩ := getElem?_set_self hlt
      have hother : ∀ {j},j≠i→(lots.set i ⟨lot.remaining-take,lot.expiresAt⟩)[j]?=lots[j]? :=
        fun hj => getElem?_set_ne hj.symm
      have hin : ∀ {j},j∈is→j≠i := fun hj heq => hni (heq ▸ hj)
      have hset := fun p => @pointsWhere_set p lots i lot (lot.remaining-take) hl
      refine ⟨fun j hj => ?_,h.nonneg,h.unspent,fun p hp => ?_,?_⟩
      · rw [h.others j fun hm => hj (mem_cons_of_mem _ hm),hother fun heq => hj (heq ▸ mem_cons_self)]
      · have hall := h.taken p fun j hj l hjl => hp j (mem_cons_of_mem _ hj) l (hother (hin hj) ▸ hjl)
        rw [hall,hset,if_pos (hp i mem_cons_self lot hl)]
        omega
      · by_cases hall : lot.remaining≤left
        · refine h.emptied.imp_right fun he j hj l hjl => ?_
          rcases mem_cons.mp hj with rfl|hj
          · rw [h.others j hni,hself] at hjl
            cases hjl
            dsimp only
            omega
          · exact he j hj l hjl
        · refine .inl ?_
          rw [drain_done (by omega)]
          omega

theorem mem_pick {i : ℕ} :
    i∈pick p lots ↔ ∃ l,lots[i]?=some l∧0<l.remaining∧p l.expiresAt=true := by
  rw [pick,mem_insertionSort,mem_filter,mem_range]
  constructor
  · rintro ⟨-,hany⟩
    cases hl : lots[i]? with
    | none =>
      rw [hl] at hany
      cases hany
    | some l =>
      rw [hl] at hany
      obtain ⟨hr,hp⟩ := Bool.and_eq_true_iff.mp hany
      exact ⟨l,rfl,of_decide_eq_true hr,hp⟩
  · rintro ⟨l,hl,hr,hp⟩
    refine ⟨(List.getElem?_eq_some_iff.mp hl).1,?_⟩
    rw [hl,Option.any_some,hp,decide_eq_true hr]
    rfl

theorem pick_nodup (p : Option ℤ→Bool) (lots : List Lot) : (pick p lots).Nodup :=
  (perm_insertionSort _ _).nodup_iff.mpr (nodup_range.filter _)

section
variable {amount : ℤ} (hnn : Nonneg lots) (hpos : 0≤amount)
variable (hle : amount≤pointsWhere p lots)
include hnn hpos hle

/-- Taking at most the points of the lots picked takes them all from those lots. -/
theorem drain_pick :
    Drained (pick p lots) amount lots (drain (pick p lots) amount lots).1 0 ∧
      (drain (pick p lots) amount lots).2=0 := by
  have h := drain_spec hpos hnn (pick_nodup p lots)
  have hzero : (drain (pick p lots) amount lots).2=0 := by
    refine h.emptied.elim id fun he => ?_
    have hnone : pointsWhere p (drain (pick p lots) amount lots).1=0 := by
      refine sum_eq_zero fun x hx => ?_
      obtain ⟨l,hl,rfl⟩ := mem_map.mp hx
      obtain ⟨i,hi⟩ := mem_iff_getElem?.mp hl
      split_ifs with hp
      · by_cases hin : i∈pick p lots
        · exact he i hin l hi
        have hold := (h.others i hin).symm.trans hi
        have hno : ¬0<l.remaining := fun hr => hin (mem_pick.mpr ⟨l,hold,hr,hp⟩)
        have := h.nonneg l hl
        omega
      · rfl
    have htaken := h.taken p fun i hi l hl => by
      obtain ⟨l',hl',-,hp⟩ := mem_pick.mp hi
      cases hl.symm.trans hl'
      exact hp
    have := h.unspent
    omega
  rw [hzero] at h
  exact ⟨h,hzero⟩

theorem drain_pick_total :
    pointsWhere (fun _ => true) (drain (pick p lots) amount lots).1 =
      pointsWhere (fun _ => true) lots-amount := by
  rw [(drain_pick hnn hpos hle).1.taken (fun _ => true) fun _ _ _ _ => rfl,sub_zero]

end

/-- A posted debit is taken from the lots it is meant for. -/
theorem consume_posted (hnn : Nonneg lots) (hneg : e.points<0) (h : Posted lots e) :
    ∃ p,consume lots (-e.points) e.createdAt (decide (e.kind=.expire)) =
        (drain (pick p lots) (-e.points) lots).1∧-e.points≤pointsWhere p lots ∧
      p=if e.kind=.expire then hasExpired e.createdAt else notExpired e.createdAt := by
  unfold consume
  by_cases hk : e.kind=.expire
  · exact ⟨_,by rw [if_pos (decide_eq_true hk)],h.2 hneg hk,(if_pos hk).symm⟩
  have hle := h.1 hneg hk
  refine ⟨_,?_,hle,(if_neg hk).symm⟩
  rw [if_neg (by simpa using hk),drain_append,(drain_pick hnn (by omega) hle).2,drain_done le_rfl]

/-- A posted row keeps the lots' points the sum of the rows. -/
theorem postEntry_total (hnn : Nonneg lots)
    (h : Posted lots e) : Nonneg (postEntry lots e) ∧
      pointsWhere (fun _ => true) (postEntry lots e) =
        pointsWhere (fun _ => true) lots+e.points := by
  unfold postEntry
  split_ifs with hpos hneg
  · refine ⟨fun l hl => ?_,?_⟩
    · rcases mem_concat_iff.mp hl with hold|rfl
      · exact hnn l hold
      · exact hpos.le
    · simp [pointsWhere]
  · obtain ⟨p,hcon,hle,-⟩ := consume_posted hnn hneg h
    rw [hcon,drain_pick_total hnn (by omega) hle]
    exact ⟨(drain_pick hnn (by omega) hle).1.nonneg,by omega⟩
  · exact ⟨hnn,by omega⟩

theorem foldl_total : ∀ {lots : List Lot},Nonneg lots→
    Throughout Posted lots entries→Nonneg (entries.foldl postEntry lots) ∧
      pointsWhere (fun _ => true) (entries.foldl postEntry lots) =
        pointsWhere (fun _ => true) lots+ledgerSum entries := by
  induction entries with
  | nil => exact fun hnn _ => ⟨hnn,(add_zero _).symm⟩
  | cons _ _ ih =>
    intro lots hnn h
    obtain ⟨hnn',htot⟩ := postEntry_total hnn h.1
    obtain ⟨hend,hsum⟩ := ih hnn' h.2
    refine ⟨hend,?_⟩
    rw [foldl_cons,hsum,htot,ledgerSum,ledgerSum,map_cons,sum_cons]
    omega

theorem throughout_append {ok : List Lot → LedgerEntry→Prop} {first rest : List LedgerEntry} :
    ∀ {lots : List Lot},Throughout ok lots (first++rest) ↔
      Throughout ok lots first∧Throughout ok (first.foldl postEntry lots) rest := by
  induction first with
  | nil => exact ⟨fun h => ⟨trivial,h⟩,fun h => h.2⟩
  | cons _ _ ih =>
    intro lots
    rw [cons_append,Throughout,Throughout,ih,foldl_cons,and_assoc]

/-- A lot without the points that have expired by a time. -/
def written (now : ℤ) (l : Lot) : Lot := if hasExpired now l.expiresAt then ⟨0,l.expiresAt⟩ else l

/-- Lots without the points that have expired by a time: what later debits see. -/
def writtenOff (now : ℤ) (lots : List Lot) : List Lot := lots.map (written now)

theorem written_expiresAt (now : ℤ) (l : Lot) : (written now l).expiresAt=l.expiresAt := by
  unfold written
  split_ifs <;> rfl

/-- What is unexpired later is unexpired now. -/
theorem hasExpired_of_later (hu : now≤u) {x : Option ℤ}
    (h : notExpired u x=true) : hasExpired now x=false := by
  cases x with
  | none => rfl
  | some x =>
    have hlate : ¬x≤u := by simpa [notExpired,hasExpired] using h
    exact decide_eq_false fun hx => hlate (hx.trans hu)

theorem written_of_unexpired (h : hasExpired now l.expiresAt=false) :
    written now l=l := if_neg (by simp [h])

theorem written_of_notExpired (hu : now≤u)
    (h : notExpired u l.expiresAt=true) : written now l=l :=
  written_of_unexpired (hasExpired_of_later hu h)

theorem pointsWhere_writtenOff (hu : now≤u) (lots : List Lot) :
    pointsWhere (notExpired u) (writtenOff now lots)=pointsWhere (notExpired u) lots := by
  rw [pointsWhere,writtenOff,map_map]
  refine congrArg sum (map_congr_left fun l _ => ?_)
  dsimp only [Function.comp_apply]
  rw [written_expiresAt]
  split_ifs with h
  · rw [written_of_notExpired hu h]
  · rfl

theorem pick_writtenOff (hu : now≤u) (lots : List Lot) :
    pick (notExpired u) (writtenOff now lots)=pick (notExpired u) lots := by
  have hkey : ∀ i,expiryOf (writtenOff now lots) i=expiryOf lots i := by
    intro i
    rw [expiryOf,expiryOf,writtenOff,getElem?_map]
    cases lots[i]? with
    | none => rfl
    | some l => exact written_expiresAt now l
  have hsee : ∀ i : ℕ,((writtenOff now lots)[i]?).any
      (fun l : Lot => decide (0<l.remaining)&&notExpired u l.expiresAt) =
      (lots[i]?).any fun l : Lot => decide (0<l.remaining)&&notExpired u l.expiresAt := by
    intro i
    rw [writtenOff,getElem?_map]
    cases lots[i]? with
    | none => rfl
    | some l =>
      rw [Option.map_some,Option.any_some,Option.any_some,written_expiresAt]
      cases hex : notExpired u l.expiresAt with
      | false => rw [Bool.and_false,Bool.and_false]
      | true => rw [written_of_notExpired hu hex]
  have hlen : (writtenOff now lots).length=lots.length := length_map ..
  unfold pick
  simp only [hsee,hkey,hlen]

/-- Draining unexpired lots commutes with writing the expired ones off. -/
theorem drain_writtenOff : ∀ {left : ℤ} {lots : List Lot},
    (∀ i∈is,∀ l,lots[i]?=some l→hasExpired now l.expiresAt=false)→
    (drain is left (writtenOff now lots)).1=writtenOff now (drain is left lots).1 := by
  induction is with
  | nil => exact fun _ => rfl
  | cons i _ ih =>
    intro left lots h
    rw [drain,drain]
    split
    · rfl
    have hget : (writtenOff now lots)[i]?=(lots[i]?).map (written now) := getElem?_map ..
    rw [hget]
    cases hl : lots[i]? with
    | none => exact ih fun j hj => h j (mem_cons_of_mem _ hj)
    | some lot =>
      have hex := h i mem_cons_self lot hl
      rw [Option.map_some,written_of_unexpired hex]
      dsimp only
      have hset : (writtenOff now lots).set i ⟨lot.remaining-min lot.remaining left,lot.expiresAt⟩ =
          writtenOff now (lots.set i ⟨lot.remaining-min lot.remaining left,lot.expiresAt⟩) := by
        have hnew := @written_of_unexpired now ⟨lot.remaining-min lot.remaining left,lot.expiresAt⟩ hex
        rw [writtenOff,writtenOff,map_set,hnew]
      rw [hset]
      refine ih fun j hj l hjl => ?_
      by_cases hji : j=i
      · subst hji
        rw [getElem?_set_self (List.getElem?_eq_some_iff.mp hl).1] at hjl
        cases hjl
        exact hex
      · rw [getElem?_set_ne (Ne.symm hji)] at hjl
        exact h j (mem_cons_of_mem _ hj) l hjl

/-- Draining expired lots changes nothing of what is left without them. -/
theorem writtenOff_drain : ∀ {left : ℤ} {lots : List Lot},
    (∀ i∈is,∀ l,lots[i]?=some l→hasExpired now l.expiresAt=true)→
    writtenOff now (drain is left lots).1=writtenOff now lots := by
  induction is with
  | nil => exact fun _ => rfl
  | cons i _ ih =>
    intro left lots h
    rw [drain]
    split_ifs
    · rfl
    cases hl : lots[i]? with
    | none => exact ih fun j hj => h j (mem_cons_of_mem _ hj)
    | some lot =>
      have hex := h i mem_cons_self lot hl
      have hlt := (List.getElem?_eq_some_iff.mp hl).1
      have hset : ∀ r,writtenOff now (lots.set i ⟨r,lot.expiresAt⟩)=writtenOff now lots :=
        fun r => map_set_same hl ((if_pos hex).trans (if_pos hex).symm)
      rw [ih,hset]
      intro j hj l hjl
      by_cases hji : j=i
      · subst hji
        rw [getElem?_set_self hlt] at hjl
        cases hjl
        exact hex
      · rw [getElem?_set_ne (Ne.symm hji)] at hjl
        exact h j (mem_cons_of_mem _ hj) l hjl

/-- The two replays of a continuation: the same lots without those expired at the
write-off, and the same rows allowed. -/
structure Alike (now : ℤ) (lots lots' : List Lot) : Prop where
  same : writtenOff now lots=writtenOff now lots'
  nonneg : Nonneg lots∧Nonneg lots'

theorem Alike.points (h : Alike now lots lots') (hu : now≤u) :
    pointsWhere (notExpired u) lots=pointsWhere (notExpired u) lots' := by
  rw [← pointsWhere_writtenOff hu,h.same,pointsWhere_writtenOff hu]

/-- A row after the write-off other than a write-off keeps the replays alike. -/
theorem Alike.step (h : Alike now lots lots')
    (hk : e.kind≠.expire) (hnow : now≤e.createdAt) (hp : Posted lots e) :
    Posted lots' e∧Alike now (postEntry lots e) (postEntry lots' e) := by
  have hp' : Posted lots' e := ⟨fun hneg hke => h.points hnow ▸ hp.1 hneg hke,
    fun _ hke => absurd hke hk⟩
  refine ⟨hp',?_,(postEntry_total h.nonneg.1 hp).1,(postEntry_total h.nonneg.2 hp').1⟩
  unfold postEntry
  split_ifs with hpos hneg
  · rw [writtenOff,writtenOff,map_append,map_append]
    exact congrArg (·++_) h.same
  · have hdrain : ∀ {ls},Nonneg ls→Posted ls e →
        writtenOff now (consume ls (-e.points) e.createdAt (decide (e.kind=.expire))) =
        (drain (pick (notExpired e.createdAt) (writtenOff now ls)) (-e.points)
          (writtenOff now ls)).1 := by
      intro ls hnn hps
      obtain ⟨p,hcon,-,heq⟩ := consume_posted hnn hneg hps
      rw [if_neg hk] at heq
      rw [hcon,heq,pick_writtenOff hnow,drain_writtenOff]
      intro i hi l hl
      obtain ⟨l',hl',-,hex⟩ := mem_pick.mp hi
      cases hl.symm.trans hl'
      exact hasExpired_of_later hnow hex
    rw [hdrain h.nonneg.1 hp,hdrain h.nonneg.2 hp',h.same]
  · exact h.same

theorem Alike.continue {rest : List LedgerEntry} : ∀ {lots lots' : List Lot},
    Alike now lots lots'→(∀ e∈rest,e.kind≠.expire∧now≤e.createdAt)→Throughout Posted lots rest→
    Throughout Posted lots' rest∧Alike now (rest.foldl postEntry lots) (rest.foldl postEntry lots') := by
  induction rest with
  | nil => exact fun h _ _ => ⟨trivial,h⟩
  | cons e _ ih =>
    intro lots lots' h hall hp
    obtain ⟨hk,hnow⟩ := hall e mem_cons_self
    obtain ⟨hp',hstep⟩ := h.step hk hnow hp.1
    obtain ⟨hrest,hend⟩ := ih hstep (fun e' he' => hall e' (mem_cons_of_mem _ he')) hp.2
    exact ⟨⟨hp',hrest⟩,hend⟩

section

/-- Of a well-formed ledger the spendable points are those not expired. -/
theorem spendable_eq (h : Throughout Posted [] entries) (now : ℤ) :
    spendable entries now=pointsWhere (notExpired now) (lotsOf entries) ∧
      0≤pointsWhere (notExpired now) (lotsOf entries) := by
  obtain ⟨hnn,htot⟩ := foldl_total (fun _ hl => by cases hl) h
  refine ⟨?_,pointsWhere_nonneg hnn⟩
  have hsplit := pointsWhere_split now (lotsOf entries)
  have hsum : pointsWhere (fun _ => true) (lotsOf entries)=0+ledgerSum entries := htot
  unfold spendable unpostedExpiredPoints
  omega

theorem expireRow_posted (now : ℤ) : Posted (lotsOf entries) (expireRow entries now) :=
  ⟨fun _ hk => absurd rfl hk,fun _ _ => (neg_neg _).le⟩

/-- The write-off leaves no expired points and the other lots as they were. -/
theorem expireRow_written (h : Throughout Posted [] entries) (now : ℤ) :
    pointsWhere (hasExpired now) (postEntry (lotsOf entries) (expireRow entries now))=0 ∧
    Alike now (lotsOf entries) (postEntry (lotsOf entries) (expireRow entries now)) := by
  have hnn : Nonneg (lotsOf entries) := (foldl_total (fun _ hl => by cases hl) h).1
  have hpos : 0≤unpostedExpiredPoints entries now := pointsWhere_nonneg hnn
  have hnn' := (postEntry_total hnn (expireRow_posted now)).1
  have hrow : (expireRow entries now).points=-unpostedExpiredPoints entries now := rfl
  by_cases hz : unpostedExpiredPoints entries now=0
  · have hsame : postEntry (lotsOf entries) (expireRow entries now)=lotsOf entries := by
      rw [postEntry,if_neg (by omega),if_neg (by omega)]
    rw [hsame]
    exact ⟨hz,rfl,hnn,hnn⟩
  · have hneg : (expireRow entries now).points<0 := by omega
    obtain ⟨p,hcon,hle,heq⟩ := consume_posted hnn hneg (expireRow_posted now)
    have hex : p=hasExpired now := heq
    have hpost : postEntry (lotsOf entries) (expireRow entries now) =
        (drain (pick (hasExpired now) (lotsOf entries)) (-(expireRow entries now).points)
          (lotsOf entries)).1 := by
      rw [postEntry,if_neg (by omega),if_pos hneg,hcon,hex]
    rw [hex] at hle
    have hpick : ∀ i∈pick (hasExpired now) (lotsOf entries),∀ l,(lotsOf entries)[i]?=some l→
        hasExpired now l.expiresAt=true := by
      intro i hi l hl
      obtain ⟨l',hl',-,hexp⟩ := mem_pick.mp hi
      cases hl.symm.trans hl'
      exact hexp
    refine ⟨?_,?_,hnn,hnn'⟩
    · rw [hpost,(drain_pick hnn (by omega) hle).1.taken _ hpick,hrow]
      unfold unpostedExpiredPoints
      omega
    · rw [hpost,writtenOff_drain hpick]

end

theorem drain_expiry : ∀ {left : ℤ} {lots : List Lot},
    (drain is left lots).1.map Lot.expiresAt=lots.map Lot.expiresAt := by
  induction is with
  | nil => exact rfl
  | cons i _ ih =>
    intro left lots
    rw [drain]
    split_ifs
    · rfl
    cases hl : lots[i]? with
    | none => exact ih
    | some =>
      rw [ih]
      exact map_set_same hl rfl

/-- Every lot has the expiry of a credit row. -/
theorem lots_expiry : ∀ {lots : List Lot},
    ∀ x∈(entries.foldl postEntry lots).map Lot.expiresAt,x∈lots.map Lot.expiresAt ∨
      ∃ e∈entries,0<e.points∧e.expiresAt=x := by
  induction entries with
  | nil => exact fun x hx => .inl hx
  | cons e _ ih =>
    intro lots x hx
    rcases ih x hx with hold|⟨e',he',hrow⟩
    · rw [postEntry] at hold
      split_ifs at hold with hpos hneg
      · rw [map_append] at hold
        rcases mem_append.mp hold with hold|hnew
        · exact .inl hold
        · exact .inr ⟨e,mem_cons_self,hpos,(mem_singleton.mp hnew).symm⟩
      · rw [consume] at hold
        split_ifs at hold <;> rw [drain_expiry] at hold <;> exact .inl hold
      · exact .inl hold
    · exact .inr ⟨e',mem_cons_of_mem _ he',hrow⟩

/-- With no credit expired nothing waits to be written off. -/
theorem unposted_zero (h : ∀ e∈entries,0<e.points→hasExpired now e.expiresAt=false) :
    unpostedExpiredPoints entries now=0 := by
  refine sum_eq_zero fun x hx => ?_
  obtain ⟨l,hl,rfl⟩ := mem_map.mp hx
  refine if_neg fun hex => ?_
  rcases lots_expiry l.expiresAt (mem_map_of_mem hl) with hno|⟨e,he,hpos,heq⟩
  · cases hno
  · rw [← heq,h e he hpos] at hex
    cases hex

/-- The balance without a replay is the replayed one. -/
theorem loyaltyBalance_replayed (entries : List LedgerEntry) (now : ℤ) :
    loyaltyBalance entries now=replayedBalance entries now := by
  unfold loyaltyBalance
  split_ifs with hz
  · have hzero : unpostedExpiredPoints entries now=0 := by
      refine unposted_zero fun e he hpos => ?_
      have hno := countP_eq_zero.mp hz e he
      simpa [hpos] using hno
    rw [replayedBalance,hzero,min_eq_right (le_max_left _ _),sub_zero]
  · rfl

/-- Writing off expired points changes nothing a customer can spend, for a ledger
whose write-offs take only points that have expired. -/
theorem write_off_invisible (entries : List LedgerEntry) (h : WellFormed Posted entries) (t : ℤ) :
    (spendable entries t=pointsWhere (notExpired t) (lotsOf entries) ∧
      0≤pointsWhere (notExpired t) (lotsOf entries)) ∧
    unpostedExpiredPoints (entries++[expireRow entries t]) t=0 ∧
    (∀ u rest,t≤u→(∀ e∈rest,e.kind≠.expire∧t≤e.createdAt)→WellFormed Posted (entries++rest)→
      spendable (entries++[expireRow entries t]++rest) u=spendable (entries++rest) u) ∧
    ((∀ e∈entries,0<e.points→hasExpired t e.expiresAt=false)→unpostedExpiredPoints entries t=0) ∧
    loyaltyBalance entries t=replayedBalance entries t := by
  obtain ⟨hgone,hlike⟩ := expireRow_written h.2 t
  refine ⟨spendable_eq h.2 t,?_,fun u rest hu hall hrest => ?_,unposted_zero,
    loyaltyBalance_replayed entries t⟩
  · rw [unpostedExpiredPoints,lotsOf,foldl_append]
    exact hgone
  obtain ⟨-,hcont⟩ := throughout_append.mp hrest.2
  obtain ⟨hcont',hend⟩ := hlike.continue hall hcont
  have hwith : Throughout Posted [] (entries++[expireRow entries t]++rest) := by
    rw [append_assoc]
    exact throughout_append.mpr ⟨h.2,expireRow_posted t,hcont'⟩
  rw [(spendable_eq hwith u).1,(spendable_eq hrest.2 u).1,lotsOf,lotsOf,foldl_append,foldl_append,
    foldl_append]
  exact (hend.points hu).symm

/-- A hundred points that expire at 10 and fifty that do not, thirty spent before. -/
def sampleLedger : List LedgerEntry :=
  [⟨.earn,100,some 10,0⟩,⟨.earn,50,none,1⟩,⟨.redeem,-30,none,5⟩]

theorem write_off_invisible_sample :
    unpostedExpiredPoints (sampleLedger++[expireRow sampleLedger 12]) 12=0 ∧
    unpostedExpiredPoints sampleLedger 12=70 :=
  ⟨(write_off_invisible sampleLedger
    ⟨by decide,⟨⟨fun h => absurd h (by decide),fun h => absurd h (by decide)⟩,
      ⟨fun h => absurd h (by decide),fun h => absurd h (by decide)⟩,
      ⟨fun _ _ => by decide +kernel,nofun⟩,trivial⟩⟩ 12).2.1,by decide +kernel⟩

/-- A write-off that no expired point covers makes the spendable points negative. -/
theorem write_off_unbounded : ¬∀ entries t,WellFormed Covered entries→
    spendable entries t=pointsWhere (notExpired t) (lotsOf entries) := fun h =>
  absurd (h [⟨.expire,-1,none,0⟩] 0 ⟨by decide,fun _ hk => absurd rfl hk,trivial⟩)
    (by decide +kernel)

section
variable (owns : String → String → Bool) (rows : List LoyaltyRow) (customerId : String)

/-- Order of posting: by time, credits before debits, ties as the rows stand. -/
def inOrder (a b : LoyaltyRow) : Bool :=
  a.createdAt<b.createdAt∨a.createdAt=b.createdAt∧(b.points<0∨0≤a.points)

/-- What the accounting reads of a customer's rows, without those of an order the
customer does not own. -/
def customerEntries : List LedgerEntry :=
  ((rows.filter fun r =>
    decide (r.customerId=customerId)&&r.orderId.all (owns customerId)).insertionSort
    fun a b => inOrder a b).map fun r => ⟨r.kind,r.points,r.expiresAt,r.createdAt⟩

/-- A store whose balances are those of its ledger. -/
def ledgerWorld (expiryDays : Option ℤ) : LoyaltyLedger.World where
  loyaltyBalance := fun rows customerId now =>
    let balance := loyaltyBalance (customerEntries owns rows customerId) now
    ⟨balance.pendingExpiry,balance.available⟩
  expiryDays := expiryDays

variable {owns rows customerId}

/-- Writing off expired points adds the row of the accounting to a ledger in order of posting. -/
theorem postExpiry_entries {days : Option ℤ} (hord : rows.Pairwise fun a b => inOrder a b)
    (hpast : ∀ r∈rows,r.createdAt≤now) (hnew : .expire customerId now∉rows.map LoyaltyRow.sourceRef)
    (hwf : WellFormed Posted (customerEntries owns rows customerId))
    (hpos : 0<unpostedExpiredPoints (customerEntries owns rows customerId) now) :
    customerEntries owns (postExpiry (ledgerWorld owns days) rows customerId now) customerId =
      customerEntries owns rows customerId++
        [expireRow (customerEntries owns rows customerId) now] := by
  have hpen : ((ledgerWorld owns days).loyaltyBalance rows customerId now).pendingExpiry =
      unpostedExpiredPoints (customerEntries owns rows customerId) now := by
    obtain ⟨hspe,hnon⟩ := spendable_eq hwf.2 now
    unfold spendable at hspe
    dsimp only [ledgerWorld]
    rw [loyaltyBalance_replayed]
    exact min_eq_right (le_max_of_le_right (by omega))
  have hend : (postExpiry (ledgerWorld owns days) rows customerId now).Pairwise
      fun a b => inOrder a b := by
    unfold postExpiry
    rw [hpen,if_neg (not_le.mpr hpos),insertRow,if_neg hnew]
    refine pairwise_append.mpr ⟨hord,pairwise_singleton _ _,fun r hr x hx => ?_⟩
    obtain rfl := mem_singleton.mp hx
    have := hpast r hr
    simp only [inOrder]
    grind
  rw [customerEntries,(hend.filter _).insertionSort_eq,postExpiry,hpen,if_neg (not_le.mpr hpos),
    insertRow,if_neg hnew,filter_append,map_append,expireRow]
  nth_rewrite 2 [customerEntries]
  rw [(hord.filter _).insertionSort_eq]
  simp
end

end SellRight.LoyaltyExpiry
