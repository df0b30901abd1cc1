import SellRight.CreditService
import SellRight.OrderNumbers

/-!
# Looking orders up by the code a store issued

The tracking importer and the customer lookup read order codes in their own
ways. The importer drops a leading `#`, which a configured format may start
with, and then no longer finds the order that carries the code.
-/

namespace SellRight.OrderCodeLookups

open OrderNumbers List
open CreditService (isWhite)

/-- A code without surrounding white space. -/
def trim (code : Code) : Code :=
  ((code.dropWhile isWhite).reverse.dropWhile isWhite).reverse

def toUpperCase (code : Code) : Code := code.map Char.toUpper

/-- Drop one leading `#`. -/
def dropHash : Code → Code
  | [] => []
  | c::rest => if c = '#' then rest else c::rest

/-- The importer's form of a code: one leading `#` dropped, upper case. -/
def normalizeOrderCode (v : Code) : Code := toUpperCase (trim (dropHash (trim v)))

/-- The order a row of a tracking file is matched with, among the orders' codes. -/
def findOrder (codes : List Code) (cell : Code) : Option Code :=
  codes.find? fun code => decide (toUpperCase code=normalizeOrderCode cell)

/-- Add a candidate that is not empty, a lone `#` or there already. -/
def addCandidate (out : List Code) (v : Code) : List Code :=
  if v≠[]∧v≠['#']∧out.contains v=false then out++[v] else out

/-- Add a text as it is, without its leading `#` signs and with one. -/
def addVariants (out : List Code) (base : Code) : List Code :=
  let bare := base.dropWhile fun c => c = '#'
  [base,bare,'#'::bare].foldl addCandidate out

/-- Codes a customer-typed order reference may stand for. -/
def orderCodeCandidates (input : Code) : List Code :=
  [trim input,toUpperCase (trim input)].foldl addVariants []

/-- The importer finds a number's code under its upper-case form, and the customer
lookup tries the code itself. -/
def ImportsBack (format : OrderNumberFormat) (n : ℕ) : Prop :=
  normalizeOrderCode (formatOrderCode format n)=toUpperCase (formatOrderCode format n) ∧
  formatOrderCode format n∈orderCodeCandidates (formatOrderCode format n)

theorem isWhite_of_affix {c : Char} (h : affixChar c=true) : isWhite c=false := by
  have hcases : (48≤c.toNat∧c.toNat≤57)∨(65≤c.toNat∧c.toNat≤90)∨(97≤c.toNat∧c.toNat≤122)∨
      c.toNat=35∨c.toNat=95∨c.toNat=46∨c.toNat=47∨c.toNat=45 := by
    simp only [affixChar,Bool.or_eq_true,contains_iff_mem,mem_cons,not_mem_nil,or_false] at h
    rcases h with h|rfl|rfl|rfl|rfl|rfl
    · rcases Bool.or_eq_true_iff.mp h with h|h
      · rcases Bool.or_eq_true_iff.mp h with h|h
        · exact .inr (.inl (of_decide_eq_true h))
        obtain ⟨hlo,hhi⟩ := Bool.and_eq_true_iff.mp h
        exact .inr (.inr (.inl ⟨of_decide_eq_true hlo,of_decide_eq_true hhi⟩))
      obtain ⟨hlo,hhi⟩ := Bool.and_eq_true_iff.mp h
      exact .inl ⟨of_decide_eq_true hlo,of_decide_eq_true hhi⟩
    all_goals decide
  simp only [isWhite,mem_cons,not_mem_nil,or_false,Bool.or_eq_false_iff,decide_eq_false_iff_not]
  omega

variable {code : Code}

theorem dropWhile_of_all (h : ∀ c∈code,isWhite c=false) :
    code.dropWhile isWhite=code := by
  cases code with
  | nil => rfl
  | cons c => exact dropWhile_cons_of_neg (Bool.eq_false_iff.mp (h c mem_cons_self))

theorem trim_of_all (h : ∀ c∈code,isWhite c=false) : trim code=code := by
  rw [trim,dropWhile_of_all h,dropWhile_of_all fun c hc => h c (mem_reverse.mp hc),reverse_reverse]

theorem affixError_chars {name : String} {value : Code} (h : affixError name value=none) :
    ∀ c∈value,affixChar c=true := by
  unfold affixError at h
  split_ifs at h with hlen hall
  exact all_eq_true.mp (Bool.not_eq_false _ ▸ hall)

/-- The characters of an issued code are those of its texts and digits. -/
theorem formatOrderCode_chars {v : OrderNumbering} (h : orderNumberingError v=none) (n : ℕ) :
    ∀ c∈formatOrderCode v.toOrderNumberFormat n,isWhite c=false := by
  obtain ⟨hlead,hrest⟩ := Option.or_eq_none_iff.mp h
  obtain ⟨htrail,-⟩ := Option.or_eq_none_iff.mp hrest
  intro c hc
  apply isWhite_of_affix
  rcases mem_append.mp hc with hc|hc
  · rcases mem_append.mp hc with hc|hc
    · exact affixError_chars hlead c hc
    · have hdig := (formatOrderCode_decomposes v.toOrderNumberFormat n).digits c hc
      rw [affixChar,Char.isAlphanum,hdig,Bool.or_true,Bool.true_or]
  · exact affixError_chars htrail c hc

theorem mem_addCandidates : ∀ {vs out : List Code},code∈out →
    code∈vs.foldl addCandidate out := by
  intro vs
  induction vs with
  | nil => exact id
  | cons _ _ ih =>
    intro out h
    refine ih ?_
    unfold addCandidate
    split_ifs
    · exact mem_append_left _ h
    · exact h

/-- A code that is its own trimmed text is a candidate for itself. -/
theorem mem_orderCodeCandidates (htrim : trim code=code) (hne : code≠[])
    (hhash : code≠['#']) : code∈orderCodeCandidates code := by
  have hfirst : code∈addCandidate [] code := by
    rw [addCandidate,if_pos ⟨hne,hhash,rfl⟩]
    exact mem_singleton_self _
  have hown : code∈addVariants [] code :=
    @mem_addCandidates code [_,_] (addCandidate [] code) hfirst
  unfold orderCodeCandidates
  rw [htrim]
  exact @mem_addCandidates code [_,_,_] (addVariants [] code) hown

theorem ne_hash_of_digit {c : Char} (h : c.isDigit=true) : c ≠ '#' := by
  rintro rfl
  exact absurd h (by decide)

/-- The head of an issued code is the head of the leading text, else a digit. -/
theorem formatOrderCode_head (format : OrderNumberFormat) (n : ℕ) :
    ∃ c rest,formatOrderCode format n=c::rest∧(c = '#' ↔ format.leading.head?=some '#') := by
  have hd := formatOrderCode_decomposes format n
  cases hl : format.leading with
  | cons c rest =>
    exact ⟨c,rest++paddedNumber format.minDigits n++format.trailing,
      by rw [formatOrderCode,hl]; rfl,Option.some_inj.symm⟩
  | nil =>
    obtain ⟨c,rest,hpad⟩ := exists_cons_of_ne_nil hd.nonempty
    refine ⟨c,rest++format.trailing,by rw [formatOrderCode,hl,hpad]; rfl,?_⟩
    have hc := ne_hash_of_digit (hd.digits c (hpad ▸ mem_cons_self))
    exact ⟨fun h => absurd h hc,nofun⟩

/-- An issued code is looked up under its own text exactly when its format does
not start with the character the importer drops. -/
theorem importsBack_iff (v : OrderNumbering) (hv : orderNumberingError v=none) (n : ℕ) :
    ImportsBack v.toOrderNumberFormat n ↔ v.leading.head?≠some '#' := by
  have hwhite := formatOrderCode_chars hv n
  have hd := formatOrderCode_decomposes v.toOrderNumberFormat n
  obtain ⟨c,rest,hcode,hhash⟩ := formatOrderCode_head v.toOrderNumberFormat n
  have htrim := trim_of_all hwhite
  have hmem : formatOrderCode v.toOrderNumberFormat n ∈
      orderCodeCandidates (formatOrderCode v.toOrderNumberFormat n) := by
    refine mem_orderCodeCandidates htrim (by rw [hcode]; exact cons_ne_nil _ _) fun h => ?_
    obtain ⟨d,digits,hpad⟩ := exists_cons_of_ne_nil hd.nonempty
    have hin : d∈formatOrderCode v.toOrderNumberFormat n := by
      rw [hd.parts,hpad]
      simp
    rw [h] at hin
    exact ne_hash_of_digit (hd.digits d (hpad ▸ mem_cons_self)) (mem_singleton.mp hin)
  have hnorm : normalizeOrderCode (formatOrderCode v.toOrderNumberFormat n) =
      toUpperCase (dropHash (c::rest)) := by
    rw [normalizeOrderCode,htrim,hcode]
    congr 1
    refine trim_of_all fun d hin => hwhite d (hcode ▸ ?_)
    rw [dropHash] at hin
    split_ifs at hin
    · exact mem_cons_of_mem _ hin
    · exact hin
  unfold ImportsBack
  rw [hnorm,Ne,← hhash]
  constructor
  · rintro ⟨heq,-⟩ rfl
    rw [hcode,dropHash,if_pos rfl] at heq
    have hlen := congrArg List.length heq
    simp [toUpperCase] at hlen
  · intro hc
    exact ⟨by rw [dropHash,if_neg hc,hcode],hmem⟩

theorem importsBack_iff_plain : ImportsBack ⟨"SR-".toList,[],6⟩ 1001 :=
  (importsBack_iff ⟨⟨"SR-".toList,[],6⟩,1001⟩ (by decide +kernel) 1001).mpr (by decide)

/-- A store that numbers its orders `#1001`, `#1002`. -/
def hashed : OrderNumbering := ⟨⟨['#'],[],0⟩,1001⟩

/-- A file that holds exactly `#1001` does not find the order `#1001`. -/
theorem importsBack_hashed : orderNumberingError hashed=none ∧
    ¬ImportsBack hashed.toOrderNumberFormat 1001 ∧
    findOrder ["#1001".toList] (formatOrderCode hashed.toOrderNumberFormat 1001)=none :=
  ⟨by decide +kernel,fun h => absurd h.1 (by decide +kernel),by decide +kernel⟩

end SellRight.OrderCodeLookups
