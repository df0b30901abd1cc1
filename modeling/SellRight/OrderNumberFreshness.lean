import Mathlib.Data.List.Nodup
import SellRight.OrderNumbers

/-!
# Order numbers are fresh and read back

Moving the counter past the highest matching code leaves every later number of
the format free, so a code is found in two rounds and no run of orders and
imports of one store gives a code twice.
-/

namespace SellRight.OrderNumberFreshness

open OrderNumbers List

variable (s : OrderStore)

/-- The number a store hands out next. -/
def counter : ℕ := (readOrderNumbering s).nextNumber

def storeFormat : OrderNumberFormat := (readOrderNumbering s).toOrderNumberFormat

/-- No code from the counter on is taken. -/
def Clear : Prop :=
  ∀ n,counter s≤n→formatOrderCode (storeFormat s) n∉s.codes

theorem firstRow_spec (rows : List (Code×ℕ)) : (firstRow rows=none → rows=[]) ∧
      ∀ best,firstRow rows=some best→∀ row∈rows,row.2≤best.2 := by
  induction rows with
  | nil => exact ⟨fun _ => rfl,nofun⟩
  | cons row rows ih =>
    rw [firstRow]
    cases hfr : firstRow rows with
    | none =>
      refine ⟨nofun,fun best hb other ho => ?_⟩
      cases hb
      rcases mem_cons.mp ho with rfl|ho
      · exact le_rfl
      · rw [ih.1 hfr] at ho
        cases ho
    | some high =>
      have hall := ih.2 high hfr
      dsimp only
      split_ifs with hlt
      · refine ⟨nofun,fun best hb other ho => ?_⟩
        cases hb
        rcases mem_cons.mp ho with rfl|ho
        · rcases hlt with hlt|⟨heq,-⟩ <;> omega
        · exact hall other ho
      · refine ⟨nofun,fun best hb other ho => ?_⟩
        cases hb
        have hle : high.2≤row.2 := by omega
        rcases mem_cons.mp ho with rfl|ho
        · exact le_rfl
        · exact (hall other ho).trans hle

/-- A taken number of the format is at most the highest one. -/
theorem highestMatchingCode_bounds {codes : List Code} {format : OrderNumberFormat} {n : ℕ}
    (h : formatOrderCode format n∈codes) :
    ∃ highest,highestMatchingCode codes format=some highest∧n≤highest.2 := by
  have hmem : (formatOrderCode format n,n)∈codes.filterMap fun code =>
      (execPattern (orderCodePattern format) code).map fun digits => (code,numberOf digits) := by
    refine mem_filterMap.mpr ⟨_,h,?_⟩
    rw [execPattern_format,Option.map_some,numberOf_padded]
  unfold highestMatchingCode
  cases hfr : firstRow (codes.filterMap fun code =>
      (execPattern (orderCodePattern format) code).map fun digits => (code,numberOf digits)) with
  | none =>
    rw [(firstRow_spec _).1 hfr] at hmem
    cases hmem
  | some highest => exact ⟨highest,rfl,(firstRow_spec _).2 highest hfr _ hmem⟩

/-- Past the highest code no number of the format is taken. -/
theorem bump_clear {s s' : OrderStore} (h : bumpOrderNumberPastExisting s=.ok s') :
    s'.codes=s.codes∧storeFormat s'=storeFormat s∧counter s≤counter s'∧Clear s' := by
  unfold bumpOrderNumberPastExisting at h
  dsimp only at h
  cases hhi : highestMatchingCode s.codes (readOrderNumbering s).toOrderNumberFormat with
  | none =>
    rw [hhi] at h
    cases h
    refine ⟨rfl,rfl,le_rfl,fun n _ hn => ?_⟩
    obtain ⟨highest,hsome,-⟩ := highestMatchingCode_bounds hn
    cases hhi.symm.trans hsome
  | some =>
    rw [hhi] at h
    dsimp only at h
    split_ifs at h with hnext hmax
    · cases h
      refine ⟨rfl,rfl,Nat.le_succ_of_le hnext,fun n hle hn => ?_⟩
      obtain ⟨highest,hsome,hbound⟩ := highestMatchingCode_bounds hn
      cases hhi.symm.trans hsome
      exact absurd (hle.trans hbound) (Nat.not_succ_le_self _)
    · cases h
      refine ⟨rfl,rfl,le_rfl,fun n hle hn => ?_⟩
      obtain ⟨highest,hsome,hbound⟩ := highestMatchingCode_bounds hn
      cases hhi.symm.trans hsome
      exact hnext (hle.trans hbound)

theorem bump_error {s : OrderStore} {e : OrderNumberError}
    (h : bumpOrderNumberPastExisting s=.error e) :
    ∃ sample highest,e=.formatExhausted sample highest := by
  unfold bumpOrderNumberPastExisting at h
  dsimp only at h
  cases hhi : highestMatchingCode s.codes (readOrderNumbering s).toOrderNumberFormat with
  | none =>
    rw [hhi] at h
    cases h
  | some =>
    rw [hhi] at h
    dsimp only at h
    split_ifs at h
    cases h
    exact ⟨_,_,rfl⟩

/-- The number space is exhausted. -/
def Exhausted (e : OrderNumberError) : Prop :=
  e=.exhausted∨∃ sample highest,e=.formatExhausted sample highest

/-- What taking a code may answer: the space is exhausted, or a code no order has. -/
def Fresh : Except OrderNumberError (Code×OrderStore) → Prop
  | .error e => Exhausted e
  | .ok (code,s') => code∉s.codes∧s'.codes=s.codes∧counter s<counter s'

/-- With no code taken from the counter on, one round answers. -/
theorem allocate_clear {s : OrderStore} (h : Clear s) (rounds : ℕ) :
    allocate (rounds+1) s=allocate 1 s∧Fresh s (allocate 1 s) := by
  have hfree : formatOrderCode (readOrderNumbering s).toOrderNumberFormat
      (readOrderNumbering s).nextNumber∉s.codes := h _ le_rfl
  rw [allocate,allocate]
  by_cases hmax : maxOrderNumber<(readOrderNumbering s).nextNumber
  · rw [if_pos hmax,if_pos hmax]
    exact ⟨rfl,.inl rfl⟩
  · rw [if_neg hmax,if_neg hmax,if_pos hfree,if_pos hfree]
    exact ⟨rfl,hfree,rfl,Nat.lt_succ_self _⟩

/-- Two rounds are enough for any codes and any counter. -/
theorem allocate_fresh (rounds : ℕ) :
    allocate (rounds+2) s=allocate 2 s∧Fresh s (allocate 2 s) := by
  rw [allocate,allocate]
  split
  · exact ⟨rfl,.inl rfl⟩
  by_cases hfree : formatOrderCode (readOrderNumbering s).toOrderNumberFormat
      (readOrderNumbering s).nextNumber∉s.codes
  · rw [if_pos hfree,if_pos hfree]
    exact ⟨rfl,hfree,rfl,Nat.lt_succ_self _⟩
  rw [if_neg hfree,if_neg hfree]
  cases hbu : bumpOrderNumberPastExisting (takeNumber s) with
  | error => exact ⟨rfl,.inr (bump_error hbu)⟩
  | ok bumped =>
    obtain ⟨hcodes,-,hcount,hclear⟩ := bump_clear hbu
    obtain ⟨hsame,hfresh⟩ := allocate_clear hclear rounds
    refine ⟨hsame,?_⟩
    have hlt : counter s<counter bumped := Nat.lt_of_succ_le hcount
    dsimp only
    cases hal : allocate 1 bumped with
    | error =>
      rw [hal] at hfresh
      exact hfresh
    | ok =>
      rw [hal] at hfresh
      obtain ⟨hnot,hkeep,hup⟩ := hfresh
      rw [hcodes] at hnot hkeep
      exact ⟨hnot,hkeep,hlt.trans hup⟩

theorem nextOrderCode_fresh :
    nextOrderCode s=allocate 2 s∧Fresh s (nextOrderCode s) := by
  obtain ⟨hsame,hfresh⟩ := allocate_fresh s 1
  rw [nextOrderCode,hsame]
  exact ⟨rfl,hfresh⟩

/-- What a step keeps: the counter goes up, codes stay and stay distinct. -/
structure Kept (s s' : OrderStore) : Prop where
  counter : counter s≤counter s'
  codes : s.codes<+:s'.codes
  distinct : s.codes.Nodup→s'.codes.Nodup

theorem Kept.refl : Kept s s := ⟨le_rfl,prefix_refl _,id⟩

theorem step_kept (action : OrderAction) : Kept s (step s action) := by
  cases action with
  | placeOrder =>
    have hfresh := (nextOrderCode_fresh s).2
    rw [step]
    cases hne : nextOrderCode s with
    | error => exact .refl s
    | ok answer =>
      rw [hne] at hfresh
      obtain ⟨hnot,hkeep,hup⟩ := hfresh
      dsimp only
      split_ifs
      · rw [hkeep]
        refine ⟨hup.le,prefix_append _ _,fun hnd => ?_⟩
        rw [← concat_eq_append,nodup_concat]
        exact ⟨hnot,hnd⟩
      · exact .refl s
  | importOrders codes =>
    rw [step]
    split_ifs with hnd
    · cases hbu : bumpOrderNumberPastExisting {s with codes := s.codes++codes} with
      | error => exact .refl s
      | ok =>
        obtain ⟨hcodes,-,hcount,-⟩ := bump_clear hbu
        refine ⟨hcount,?_,fun _ => ?_⟩
        · exact hcodes ▸ prefix_append _ _
        · exact hcodes ▸ hnd
    · exact .refl s

theorem run_kept (actions : List OrderAction) : Kept s (run s actions) := by
  induction actions generalizing s with
  | nil => exact .refl s
  | cons action _ ih =>
    have hone := step_kept s action
    have hrest := ih (step s action)
    exact ⟨hone.counter.trans hrest.counter,hone.codes.trans hrest.codes,
      fun hnd => hrest.distinct (hone.distinct hnd)⟩

/-- A number in range is read back from its code, and a code that is read has one
decomposition, whose digits are the longest run after the leading text. -/
def ReadBack (format : OrderNumberFormat) : Prop :=
  (∀ n,1≤n→n≤ maxOrderNumber→parseOrderNumber format (formatOrderCode format n)=some n) ∧
  ∀ code n,parseOrderNumber format code=some n→∃ digits,Decomposes format code digits ∧
    numberOf digits=n∧(∀ other,Decomposes format code other → other=digits) ∧
    (code.drop format.leading.length).takeWhile Char.isDigit=digits

theorem readBack_of_accepted {v : OrderNumbering} (h : orderNumberingError v=none) :
    ReadBack v.toOrderNumberFormat := by
  refine ⟨fun n _ hn => parseOrderNumber_format _ hn,fun code n hp => ?_⟩
  unfold parseOrderNumber at hp
  split at hp
  · cases hp
  · next digits hex =>
    have hd := execPattern_orderCode.mp hex
    split_ifs at hp
    cases hp
    exact ⟨digits,hd,rfl,fun other ho => hd.unique ho,hd.longest (orderNumberingError_ends h).2⟩

/-- Order numbers are fresh and readable back: for every accepted format, for any
codes and counter, and over any run of orders and imports of a store. -/
theorem order_numbers_fresh : (∀ v,orderNumberingError v=none → ReadBack v.toOrderNumberFormat) ∧
    (∀ s,nextOrderCode s=allocate 2 s∧Fresh s (nextOrderCode s))∧∀ s actions,s.codes.Nodup →
      (run s actions).codes.Nodup∧counter s≤counter (run s actions) := by
  refine ⟨fun v => readBack_of_accepted,nextOrderCode_fresh,fun s actions hnd => ?_⟩
  have h := run_kept s actions
  exact ⟨h.distinct hnd,h.counter⟩

/-- A counter behind two imported codes, one of them padded. -/
def behind : OrderStore := ⟨some ⟨⟨"A-".toList,[],0⟩,7⟩,["A-0007".toList,"A-9".toList,"A-7".toList]⟩

theorem order_numbers_fresh_behind : (run behind [.placeOrder true,.placeOrder true]).codes.Nodup ∧
    (run behind [.placeOrder true,.placeOrder true]).codes =
      behind.codes++["A-10".toList,"A-11".toList] :=
  ⟨(order_numbers_fresh.2.2 behind _ (by decide)).1,by decide +kernel⟩

end SellRight.OrderNumberFreshness
