import Mathlib.Algebra.GroupWithZero.Nat
import Mathlib.Data.List.TakeWhile
import Mathlib.Order.Defs.LinearOrder

/-!
# Order numbers and the codes they make

A store's counter, its format and the codes made of both. The number of a code
is read back with a pattern that escapes the configured texts, by the counter
when a code is taken, and by an import when it moves the counter past its codes.
-/

namespace SellRight.OrderNumbers

open List

/-- Text of a code. -/
abbrev Code := List Char

structure OrderNumberFormat where
  (leading trailing : Code)
  minDigits : ℕ
  deriving DecidableEq

structure OrderNumbering extends OrderNumberFormat where
  nextNumber : ℕ
  deriving DecidableEq

def defaultOrderNumbering : OrderNumbering := ⟨⟨[],[],0⟩,1001⟩

/-- Largest number the counter may hand out. -/
def maxOrderNumber : ℕ := 999999999999

def maxSafeInteger : ℕ := 9007199254740991

/-- A character of `AFFIX_CHARS`. -/
def affixChar (c : Char) : Bool := c.isAlphanum||['#','_','.','/','-'].contains c

def utf16Length (text : Code) : ℕ := (text.map fun c => if c.toNat<65536 then 1 else 2).sum

/-- The number of a code: its digits, padded to the minimum. -/
def paddedNumber (minDigits n : ℕ) : Code :=
  replicate (minDigits-(Nat.toDigits 10 n).length) '0'++Nat.toDigits 10 n

def formatOrderCode (format : OrderNumberFormat) (n : ℕ) : Code :=
  format.leading++paddedNumber format.minDigits n++format.trailing

def escapeLiteral (text : Code) : Code :=
  text.flatMap fun c => if c.isAlphanum then [c] else ['\\',c]

def orderCodePattern (format : OrderNumberFormat) : Code :=
  '^'::escapeLiteral format.leading++"([0-9]+)".toList++escapeLiteral format.trailing++['$']

inductive PatternPart where
  | start
  | finish
  | literal (c : Char)
  /-- The captured run of digits. -/
  | digits

/-- Read the text of a pattern, as far as patterns of order codes go. -/
def readPattern : Code → Option (List PatternPart)
  | [] => some []
  | '\\'::c::rest => if c.isAlphanum then none else (readPattern rest).map (.literal c::·)
  | '(' :: '[' :: '0' :: '-' :: '9' :: ']' :: '+' :: ')'::rest => (readPattern rest).map (.digits::·)
  | c::rest =>
    if c.isAlphanum then (readPattern rest).map (.literal c::·)
    else if c = '^' then (readPattern rest).map (.start::·)
    else if c = '$' then (readPattern rest).map (.finish::·)
    else none

/-- Match the parts at the start of a text and return the captured digits: a run
of digits is tried from the longest on. -/
def matchParts : List PatternPart → Code → Option Code
  | [],_ => some []
  | .start::_,_ => none
  | .finish::parts,text => if text=[] then matchParts parts text else none
  | .literal c::parts,text =>
    match text with
    | [] => none
    | d::text => if c=d then matchParts parts text else none
  | .digits::parts,text =>
    (range (text.takeWhile Char.isDigit).length).reverse.findSome? fun k =>
      (matchParts parts (text.drop (k+1))).map fun _ => text.take (k+1)

/-- Execute a pattern anchored at the start of the text. -/
def execPattern (pattern text : Code) : Option Code :=
  match readPattern pattern with
  | some (.start::parts) => matchParts parts text
  | _ => none

/-- Number of a run of digits. -/
def numberOf (digits : Code) : ℕ := Nat.ofDigitChars 10 digits 0

def parseOrderNumber (format : OrderNumberFormat) (code : Code) : Option ℕ :=
  match execPattern (orderCodePattern format) code with
  | none => none
  | some digits => if numberOf digits≤ maxSafeInteger then some (numberOf digits) else none

/-- Length and characters of a configured text. -/
def affixError (name : String) (value : Code) : Option String :=
  if 16<utf16Length value then some (name++" must be at most 16 characters")
  else if value.all affixChar=false then
    some (name++" may contain only letters, digits and # _ . / -")
  else none

def orderNumberingError (v : OrderNumbering) : Option String :=
  (affixError "prefix" v.leading).or <| (affixError "suffix" v.trailing).or <|
    if v.leading.getLast?.any Char.isDigit then some "prefix must not end with a digit"
    else if v.trailing.head?.any Char.isDigit then some "suffix must not start with a digit"
    else if 12<v.minDigits then some "minimum digits must be between 0 and 12"
    else if v.nextNumber<1∨maxOrderNumber<v.nextNumber then
      some "next number must be between 1 and 999999999999"
    else none

/-- The counter row of a store and the codes of its orders, trashed ones included. -/
structure OrderStore where
  numbering : Option OrderNumbering
  codes : List Code
  deriving DecidableEq

inductive OrderNumberError where
  /-- No number above the highest code is left in the format. -/
  | formatExhausted (sample highest : Code)
  | exhausted
  | noFreeCode
  deriving DecidableEq

/-- The row that `ORDER BY n DESC, code LIMIT 1` returns. -/
def firstRow : List (Code×ℕ) → Option (Code×ℕ)
  | [] => none
  | row::rows =>
    match firstRow rows with
    | none => some row
    | some best => if row.2<best.2∨row.2=best.2∧best.1<row.1 then some best else some row

/-- The highest existing code that matches the format. -/
def highestMatchingCode (codes : List Code) (format : OrderNumberFormat) : Option (Code×ℕ) :=
  firstRow (codes.filterMap fun code =>
    (execPattern (orderCodePattern format) code).map fun digits => (code,numberOf digits))

variable (s : OrderStore)

def readOrderNumbering : OrderNumbering := s.numbering.getD defaultOrderNumbering

def bumpOrderNumberPastExisting : Except OrderNumberError OrderStore :=
  let current := readOrderNumbering s
  match highestMatchingCode s.codes current.toOrderNumberFormat with
  | none => .ok {s with numbering := some current}
  | some highest =>
    if current.nextNumber≤highest.2 then
      if maxOrderNumber≤highest.2 then
        .error (.formatExhausted (formatOrderCode current.toOrderNumberFormat 0) highest.1)
      else .ok {s with numbering := some {current with nextNumber := highest.2+1}}
    else .ok {s with numbering := some current}

/-- Take the number the counter shows and advance it. -/
def takeNumber : OrderStore :=
  let current := readOrderNumbering s
  {s with numbering := some {current with nextNumber := current.nextNumber+1}}

/-- The loop of `nextOrderCode` with the rounds it has left. -/
def allocate : ℕ → OrderStore → Except OrderNumberError (Code×OrderStore)
  | 0,_ => .error .noFreeCode
  | rounds+1,s =>
    let taken := readOrderNumbering s
    if maxOrderNumber<taken.nextNumber then .error .exhausted
    else
      let code := formatOrderCode taken.toOrderNumberFormat taken.nextNumber
      if code∉s.codes then .ok (code,takeNumber s)
      else
        match bumpOrderNumberPastExisting (takeNumber s) with
        | .error e => .error e
        | .ok bumped => allocate rounds bumped

def nextOrderCode : Except OrderNumberError (Code×OrderStore) := allocate 3 s

inductive OrderAction where
  /-- An order takes a code; its transaction commits or rolls back. -/
  | placeOrder (commits : Bool)
  /-- An import stores orders with their own codes. -/
  | importOrders (codes : List Code)

def step : OrderAction → OrderStore
  | .placeOrder commits =>
    match nextOrderCode s with
    | .error _ => s
    | .ok (code,taken) => if commits then {taken with codes := taken.codes++[code]} else s
  | .importOrders codes =>
    if (s.codes++codes).Nodup then
      match bumpOrderNumberPastExisting {s with codes := s.codes++codes} with
      | .error _ => s
      | .ok bumped => bumped
    else s

def run (actions : List OrderAction) : OrderStore := actions.foldl step s

theorem readPattern_alnum {c : Char} (hc : c.isAlphanum=true) (rest : Code) :
    readPattern (c::rest)=(readPattern rest).map (.literal c::·) := by
  rw [readPattern.eq_def]
  split
  · next h => cases h
  · next h =>
    cases h
    exact absurd hc (by decide)
  · next h =>
    cases h
    exact absurd hc (by decide)
  · next h =>
    cases h
    exact if_pos hc

/-- Escaping keeps every character of a text a literal. -/
theorem readPattern_escape (text rest : Code) : readPattern (escapeLiteral text++rest) =
      (readPattern rest).map (text.map PatternPart.literal++·) := by
  induction text with
  | nil => exact Option.map_id'.symm
  | cons c text ih =>
    have hcom : ∀ parts : Option (List PatternPart),
        (parts.map (text.map PatternPart.literal++·)).map (.literal c::·) =
          parts.map ((c::text).map PatternPart.literal++·) := fun parts => by cases parts <;> rfl
    by_cases hc : c.isAlphanum=true
    · have hesc : escapeLiteral (c::text)=c::escapeLiteral text := by
        rw [escapeLiteral,flatMap_cons,if_pos hc]
        rfl
      rw [hesc,cons_append,readPattern_alnum hc,ih,hcom]
    · have hesc : escapeLiteral (c::text) = '\\'::c::escapeLiteral text := by
        rw [escapeLiteral,flatMap_cons,if_neg hc]
        rfl
      rw [hesc,cons_append,cons_append,readPattern,if_neg hc,ih,hcom]

/-- What the pattern of a format reads as. -/
theorem readPattern_orderCode (format : OrderNumberFormat) :
    readPattern (orderCodePattern format)=some (.start::(format.leading.map PatternPart.literal ++
      .digits::(format.trailing.map PatternPart.literal++[.finish]))) := by
  have hend : readPattern ['$']=some [.finish] := rfl
  have htail := readPattern_escape format.trailing ['$']
  have hdig : readPattern ("([0-9]+)".toList++(escapeLiteral format.trailing++['$'])) =
      some (.digits::(format.trailing.map PatternPart.literal++[.finish])) := by
    change (readPattern (escapeLiteral format.trailing++['$'])).map _=_
    rw [htail]
    rfl
  have hall := readPattern_escape format.leading
    ("([0-9]+)".toList++(escapeLiteral format.trailing++['$']))
  rw [hdig] at hall
  have hsta : ∀ rest,readPattern ('^'::rest)=(readPattern rest).map (.start::·) := fun _ => rfl
  have htext : orderCodePattern format = '^'::(escapeLiteral format.leading ++
      ("([0-9]+)".toList++(escapeLiteral format.trailing++['$']))) := by
    simp only [orderCodePattern,cons_append,append_assoc]
  rw [htext,hsta,hall]
  rfl

variable {text code digits : Code} {format : OrderNumberFormat}

theorem matchParts_literals {parts : List PatternPart} :
    matchParts (text.map PatternPart.literal++parts) code=some digits ↔
      ∃ rest,code=text++rest∧matchParts parts rest=some digits := by
  induction text generalizing code with
  | nil => exact ⟨fun h => ⟨code,rfl,h⟩,fun ⟨_,rfl,h⟩ => h⟩
  | cons c _ ih =>
    cases code with
    | nil => exact ⟨nofun,fun ⟨_,h,_⟩ => (by cases h)⟩
    | cons d =>
      rw [map_cons,cons_append,matchParts]
      by_cases hcd : c=d
      · subst hcd
        rw [if_pos rfl,ih]
        constructor
        · rintro ⟨rest,rfl,h⟩
          exact ⟨rest,rfl,h⟩
        · rintro ⟨rest,hcode,h⟩
          exact ⟨rest,(cons.inj hcode).2,h⟩
      · rw [if_neg hcd]
        exact ⟨nofun,fun ⟨_,h,_⟩ => absurd (cons.inj h).1.symm hcd⟩

theorem matchParts_tail :
    matchParts (text.map PatternPart.literal++[.finish]) code=some digits ↔
      code=text∧digits=[] := by
  rw [matchParts_literals]
  constructor
  · rintro ⟨rest,rfl,h⟩
    rw [matchParts] at h
    split_ifs at h with hr
    exact ⟨by rw [hr,append_nil],(Option.some.inj h).symm⟩
  · rintro ⟨rfl,rfl⟩
    exact ⟨[],(append_nil _).symm,rfl⟩

/-- The parts of a code in a format. -/
structure Decomposes (format : OrderNumberFormat) (code digits : Code) : Prop where
  parts : code=format.leading++digits++format.trailing
  nonempty : digits≠[]
  digits : ∀ c∈digits,c.isDigit=true

/-- The captured digits are a run of digits before the trailing text. -/
theorem matchParts_digits_sound
    (h : matchParts (.digits::(text.map PatternPart.literal++[.finish])) code=some digits) :
    code=digits++text∧digits≠[]∧∀ c∈digits,c.isDigit=true := by
  obtain ⟨k,hk,hf⟩ := exists_of_findSome?_eq_some h
  have hlt : k<(code.takeWhile Char.isDigit).length :=
    mem_range.mp (mem_reverse.mp hk)
  obtain ⟨rest,hrest,rfl⟩ := Option.map_eq_some_iff.mp hf
  have htake : code.take (k+1)=(code.takeWhile Char.isDigit).take (k+1) := by
    have hpre := prefix_iff_eq_take.mp ( takeWhile_prefix (l := code) Char.isDigit)
    rw [hpre,take_take,min_eq_left hlt]
  refine ⟨?_,?_,?_⟩
  · rw [← (matchParts_tail.mp hrest).1,take_append_drop]
  · intro hnil
    rw [htake] at hnil
    have hlen := congrArg length hnil
    rw [length_take,min_eq_left hlt] at hlen
    cases hlen
  · intro c hc
    rw [htake] at hc
    exact mem_takeWhile_imp (mem_of_mem_take hc)

theorem matchParts_digits :
    matchParts (.digits::(text.map PatternPart.literal++[.finish])) code=some digits ↔
      code=digits++text∧digits≠[]∧∀ c∈digits,c.isDigit=true := by
  refine ⟨matchParts_digits_sound,?_⟩
  rintro ⟨rfl,hne,hdig⟩
  have hpos := length_pos_iff.mpr hne
  have hrun : digits.length≤((digits++text).takeWhile Char.isDigit).length := by
    rw [takeWhile_append_of_pos hdig,length_append]
    omega
  have hone : (matchParts (text.map PatternPart.literal++[.finish])
      ((digits++text).drop (digits.length-1+1))).isSome=true := by
    rw [Nat.sub_add_cancel hpos,drop_left,matchParts_tail.mpr ⟨rfl,rfl⟩]
    rfl
  cases h : matchParts (.digits::(text.map PatternPart.literal++[.finish])) (digits++text) with
  | none =>
    have hno := findSome?_eq_none_iff.mp h (digits.length-1)
      (mem_reverse.mpr (mem_range.mpr (by omega)))
    rw [Option.map_eq_none_iff] at hno
    rw [hno] at hone
    cases hone
  | some => exact congrArg some (append_cancel_right (matchParts_digits_sound h).1).symm

/-- The pattern of a format captures the digits of a code and nothing else. -/
theorem execPattern_orderCode :
    execPattern (orderCodePattern format) code=some digits ↔ Decomposes format code digits := by
  unfold execPattern
  rw [readPattern_orderCode]
  rw [matchParts_literals]
  constructor
  · rintro ⟨rest,rfl,h⟩
    obtain ⟨rfl,hne,hdig⟩ := matchParts_digits.mp h
    exact ⟨(append_assoc _ _ _).symm,hne,hdig⟩
  · intro h
    exact ⟨digits++format.trailing,by rw [h.parts,append_assoc],
      matchParts_digits.mpr ⟨rfl,h.nonempty,h.digits⟩⟩

theorem Decomposes.unique {other : Code}
    (h : Decomposes format code digits) (h' : Decomposes format code other) : other=digits := by
  have heq := h'.parts.symm.trans h.parts
  rw [append_assoc,append_assoc] at heq
  exact append_cancel_right (append_cancel_left heq)

theorem formatOrderCode_decomposes (format : OrderNumberFormat) (n : ℕ) :
    Decomposes format (formatOrderCode format n) (paddedNumber format.minDigits n) := by
  refine ⟨rfl,?_,?_⟩
  · exact fun h => Nat.toDigits_ne_nil (append_eq_nil_iff.mp h).2
  intro c hc
  rcases mem_append.mp hc with hz|hd
  · rw [eq_of_mem_replicate hz]
    rfl
  · exact Nat.isDigit_of_mem_toDigits (by decide) (by decide) hd

theorem numberOf_padded (minDigits n : ℕ) : numberOf (paddedNumber minDigits n)=n := by
  rw [numberOf,paddedNumber,Nat.ofDigitChars_append,Nat.ofDigitChars_replicate_zero,Nat.mul_zero]
  exact Nat.ofDigitChars_ten_toDigits

theorem execPattern_format (format : OrderNumberFormat) (n : ℕ) :
    execPattern (orderCodePattern format) (formatOrderCode format n) =
      some (paddedNumber format.minDigits n) :=
  execPattern_orderCode.mpr (formatOrderCode_decomposes format n)

/-- A formatted number is read back. -/
theorem parseOrderNumber_format (format : OrderNumberFormat) {n : ℕ} (hn : n≤ maxOrderNumber) :
    parseOrderNumber format (formatOrderCode format n)=some n := by
  have hsafe : n≤ maxSafeInteger := Nat.le_trans hn (by decide)
  unfold parseOrderNumber
  rw [execPattern_format]
  dsimp only
  rw [numberOf_padded,if_pos hsafe]

/-- A run of digits that ends where the trailing text begins is the longest. -/
theorem Decomposes.longest
    (h : Decomposes format code digits) (ht : format.trailing.head?.any Char.isDigit=false) :
    (code.drop format.leading.length).takeWhile Char.isDigit=digits := by
  have hstop : format.trailing.takeWhile Char.isDigit=[] := by
    cases hs : format.trailing with
    | nil => rfl
    | cons =>
      rw [hs] at ht
      exact takeWhile_cons_of_neg (Bool.eq_false_iff.mp ht)
  rw [h.parts,append_assoc,drop_left,takeWhile_append_of_pos h.digits,hstop,append_nil]

/-- An accepted format keeps digits out of the ends its number meets. -/
theorem orderNumberingError_ends {v : OrderNumbering} (h : orderNumberingError v=none) :
    v.leading.getLast?.any Char.isDigit=false∧v.trailing.head?.any Char.isDigit=false := by
  obtain ⟨-,hrest⟩ := Option.or_eq_none_iff.mp h
  obtain ⟨-,hends⟩ := Option.or_eq_none_iff.mp hrest
  split_ifs at hends with hlead htrail
  exact ⟨Bool.eq_false_iff.mpr hlead,Bool.eq_false_iff.mpr htrail⟩

end SellRight.OrderNumbers
