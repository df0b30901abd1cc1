import Mathlib.Tactic

/-!
# JSON values and their text

Values, the compact text written for them and a parser for the full JSON
grammar. Integers are exact; a number that is not an integer keeps its
lexeme. Object members keep their order, and a repeated name keeps its first
place with its last value. Texts are lists of characters; a lone surrogate
escape names no character and is refused. Writing followed by parsing is the
identity on values with distinct member names and no lexemes.
-/

namespace SellRight.JsonText

open List

inductive Json where
  | null
  | bool (value : Bool)
  | num (value : Int)
  | real (lexeme : List Char)
  | str (text : String)
  | arr (items : List Json)
  | obj (members : List (String×Json))

/-- Member of an object by name. -/
def Json.get (value : Json) (name : String) : Option Json :=
  match value with
  | .obj members => (members.find? fun member => member.1=name).map Prod.snd
  | _ => none

/-- Hexadecimal digit below sixteen. -/
def hexChar (n : ℕ) : Char := Nat.digitChar n

variable (c : Char)

/-- Value of a hexadecimal digit. -/
def hexValue : Option ℕ :=
  if c.isDigit then some (c.toNat-48)
  else if 97≤c.toNat∧c.toNat≤102 then some (c.toNat-87)
  else if 65≤c.toNat∧c.toNat≤70 then some (c.toNat-55)
  else none

/-- Text of one character inside a string literal. -/
def escapeChar : List Char :=
  if c = '"' then ['\\','"']
  else if c = '\\' then ['\\','\\']
  else if c.toNat=8 then ['\\','b']
  else if c.toNat=12 then ['\\','f']
  else if c.toNat=10 then ['\\','n']
  else if c.toNat=13 then ['\\','r']
  else if c.toNat=9 then ['\\','t']
  else if c.toNat<32 then
    ['\\','u','0','0',hexChar (c.toNat / 16),hexChar (c.toNat % 16)]
  else [c]

/-- Text of a string literal with its quotes. -/
def renderString (text : String) : List Char := '"' :: (text.toList.flatMap escapeChar++['"'])

/-- Text of an integer. -/
def renderInt (n : Int) : List Char :=
  if n<0 then '-' :: Nat.toDigits 10 n.natAbs else Nat.toDigits 10 n.natAbs

mutual

/-- Compact text of a value. -/
def render : Json → List Char
  | .null => ['n','u','l','l']
  | .bool true => ['t','r','u','e']
  | .bool false => ['f','a','l','s','e']
  | .num n => renderInt n
  | .real lexeme => lexeme
  | .str text => renderString text
  | .arr [] => ['[',']']
  | .arr (item::items) => '[' :: (render item++renderItems items)
  | .obj [] => ['{','}']
  | .obj ((name,value)::members) =>
    '{' :: (renderString name ++ ':' :: (render value++renderMembers members))

/-- Text of the remaining items with the closing bracket. -/
def renderItems : List Json → List Char
  | [] => [']']
  | item::items => ',' :: (render item++renderItems items)

/-- Text of the remaining members with the closing brace. -/
def renderMembers : List (String×Json) → List Char
  | [] => ['}']
  | (name,value)::members =>
    ',' :: (renderString name ++ ':' :: (render value++renderMembers members))

end

/-- Compact text of a value as a string. -/
def stringify (value : Json) : String := String.ofList (render value)

/-- JSON white space. -/
def isSpace : Bool :=
  decide (c.toNat=32)||decide (c.toNat=9)||decide (c.toNat=10)||decide (c.toNat=13)

/-- Drop leading white space. -/
def skipSpace (cs : List Char) : List Char := cs.dropWhile isSpace

/-- A character of a string literal, or the code unit of a `\u` escape. -/
inductive StringPart where
  | char (c : Char)
  | unit (n : ℕ)

/-- Value of four hexadecimal digits. -/
def hexUnit (a b c d : Char) : Option ℕ :=
  match hexValue a, hexValue b, hexValue c, hexValue d with
  | some a, some b, some c, some d => some (((a*16+b)*16+c)*16+d)
  | _, _, _, _ => none

/-- Character named by a one-letter escape. -/
def simpleEscape : Option Char :=
  if c = '"' then some '"'
  else if c = '\\' then some '\\'
  else if c = '/' then some '/'
  else if c = 'b' then some (Char.ofNat 8)
  else if c = 'f' then some (Char.ofNat 12)
  else if c = 'n' then some (Char.ofNat 10)
  else if c = 'r' then some (Char.ofNat 13)
  else if c = 't' then some (Char.ofNat 9)
  else none

/-- Parts of a string body up to its closing quote, and the rest. -/
def scanString : List Char → Option (List StringPart×List Char)
  | [] => none
  | '"' :: rest => some ([],rest)
  | '\\' :: 'u' :: a::b::c::d::rest =>
    match hexUnit a b c d with
    | none => none
    | some n => (scanString rest).map fun out => (.unit n::out.1,out.2)
  | '\\' :: e::rest =>
    match simpleEscape e with
    | none => none
    | some c => (scanString rest).map fun out => (.char c::out.1,out.2)
  | c::rest =>
    if c = '\\'∨c.toNat<32 then none
    else (scanString rest).map fun out => (.char c::out.1,out.2)

/-- Characters of the parts; surrogate halves pair up or are refused. -/
def joinParts : List StringPart → Option (List Char)
  | [] => some []
  | .char c::rest => (joinParts rest).map (c :: ·)
  | .unit n::rest =>
    if n<0xD800∨0xDFFF<n then (joinParts rest).map (Char.ofNat n :: ·)
    else match rest with
      | .unit m::rest =>
        if n<0xDC00∧0xDC00 ≤ m∧m≤0xDFFF then
          (joinParts rest).map (Char.ofNat (0x10000+(n-0xD800)*0x400+(m-0xDC00)) :: ·)
        else none
      | _ => none

/-- A string literal after its opening quote. -/
def parseString (cs : List Char) : Option (String×List Char) :=
  match scanString cs with
  | none => none
  | some (parts,rest) => (joinParts parts).map fun text => (String.ofList text,rest)

def parseFraction : List Char → Option (List Char×List Char)
  | '.' :: rest =>
    match rest.span Char.isDigit with
    | ([],_) => none
    | out => some out
  | rest => some ([],rest)

def parseExponent : List Char → Option (Int×List Char)
  | c::rest =>
    if c = 'e'∨c = 'E' then
      let (negative,rest) := match rest with
        | '-' :: rest => (true,rest)
        | '+' :: rest => (false,rest)
        | rest => (false,rest)
      match rest.span Char.isDigit with
      | ([],_) => none
      | (digits,rest) =>
        let n : Int := Nat.ofDigitChars 10 digits 0
        some (if negative then -n else n,rest)
    else some (0,c::rest)
  | [] => some (0,[])

/-- Value of a literal with these integer digits, fraction digits and
exponent. -/
def numberValue (negative : Bool) (whole fraction : List Char) (exponent : Int)
    (lexeme : List Char) : Json :=
  let digits := Nat.ofDigitChars 10 (whole++fraction) 0
  let scale := exponent-fraction.length
  let magnitude : Option ℕ :=
    if 0 ≤ scale then some (digits*10^scale.toNat)
    else if digits % 10^(-scale).toNat=0 then some (digits / 10^(-scale).toNat)
    else none
  match magnitude with
  | some n => .num (if negative then -(n : Int) else n)
  | none => .real lexeme

/-- The unsigned part of a number literal; the text is the whole literal. -/
def parseMagnitude (negative : Bool) (text body : List Char) : Option (Json×List Char) :=
  match body.span Char.isDigit with
  | (whole,rest) =>
    if whole=[]∨(whole.head?=some '0'∧whole.length≠1) then none
    else match parseFraction rest with
      | none => none
      | some (fraction,rest) =>
        match parseExponent rest with
        | none => none
        | some (exponent,rest) =>
          some (numberValue negative whole fraction exponent
            (text.take (text.length-rest.length)),rest)

/-- A number literal. -/
def parseNumber : List Char → Option (Json×List Char)
  | '-' :: rest => parseMagnitude true ('-' :: rest) rest
  | rest => parseMagnitude false rest rest

variable (members : List (String×Json))

/-- Set a member: a known name keeps its place. -/
def setMember (name : String) (value : Json) :
    List (String×Json) :=
  if members.any fun member => member.1=name then
    members.map fun member => if member.1=name then (name,value) else member
  else members++[(name,value)]

/-- Object of members in reading order. -/
def objectOf : Json :=
  .obj (members.foldl (fun acc member => setMember acc member.1 member.2) [])

mutual

/-- A value, with fuel for its nesting. -/
def parseValue : ℕ → List Char → Option (Json×List Char)
  | 0, _ => none
  | fuel+1, cs =>
    match skipSpace cs with
    | 'n' :: 'u' :: 'l' :: 'l' :: rest => some (.null,rest)
    | 't' :: 'r' :: 'u' :: 'e' :: rest => some (.bool true,rest)
    | 'f' :: 'a' :: 'l' :: 's' :: 'e' :: rest => some (.bool false,rest)
    | '"' :: rest => (parseString rest).map fun out => (.str out.1,out.2)
    | '[' :: rest =>
      match skipSpace rest with
      | ']' :: rest => some (.arr [],rest)
      | rest => (parseItems fuel rest).map fun out => (.arr out.1,out.2)
    | '{' :: rest =>
      match skipSpace rest with
      | '}' :: rest => some (.obj [],rest)
      | rest => (parseMembers fuel rest).map fun out => (objectOf out.1,out.2)
    | rest => parseNumber rest

/-- Items up to the closing bracket. -/
def parseItems : ℕ → List Char → Option (List Json×List Char)
  | 0, _ => none
  | fuel+1, cs =>
    match parseValue fuel cs with
    | none => none
    | some (item,rest) =>
      match skipSpace rest with
      | ',' :: rest => (parseItems fuel rest).map fun out => (item::out.1,out.2)
      | ']' :: rest => some ([item],rest)
      | _ => none

/-- Members up to the closing brace. -/
def parseMembers : ℕ → List Char → Option (List (String×Json)×List Char)
  | 0, _ => none
  | fuel+1, cs =>
    match skipSpace cs with
    | '"' :: rest =>
      match parseString rest with
      | none => none
      | some (name,rest) =>
        match skipSpace rest with
        | ':' :: rest =>
          match parseValue fuel rest with
          | none => none
          | some (value,rest) =>
            match skipSpace rest with
            | ',' :: rest => (parseMembers fuel rest).map fun out => ((name,value)::out.1,out.2)
            | '}' :: rest => some ([(name,value)],rest)
            | _ => none
        | _ => none
    | _ => none

end

/-- Parse a whole text. -/
def parse (text : String) : Option Json :=
  match parseValue (text.toList.length+1) text.toList with
  | some (value,rest) => if (skipSpace rest).isEmpty then some value else none
  | none => none

/-- Distinct member names throughout and no number outside the integers. -/
inductive Plain : Json → Prop
  | null : Plain .null
  | bool (value : Bool) : Plain (.bool value)
  | num (value : Int) : Plain (.num value)
  | str (text : String) : Plain (.str text)
  | arr {items : List Json} (h : ∀ item∈items, Plain item) : Plain (.arr items)
  | obj {members : List (String×Json)} (hnames : (members.map Prod.fst).Nodup)
      (h : ∀ member∈members, Plain member.2) : Plain (.obj members)

/-- A hexadecimal digit reads back. -/
theorem hexValue_hexChar : ∀ n<16, hexValue (hexChar n)=some n := by decide

/-- A character that needs no escape scans to itself. -/
theorem scanString_plain {c : Char} (hquote : c ≠ '"') (hslash : c ≠ '\\')
    (hcontrol : ¬ c.toNat<32) (rest : List Char) :
    scanString (c::rest)=(scanString rest).map fun out => (.char c::out.1,out.2) := by
  rw [scanString.eq_def]
  split
  · next heq => cases heq
  · next heq => exact absurd (cons.inj heq).1 hquote
  · next heq => exact absurd (cons.inj heq).1 hslash
  · next heq => exact absurd (cons.inj heq).1 hslash
  · next heq =>
    cases heq
    simp [hslash,hcontrol]

theorem scanString_escapeChar (rest : List Char) :
    ∃ part, scanString (escapeChar c++rest) =
        (scanString rest).map (fun out => (part::out.1,out.2)) ∧
      ∀ parts, joinParts (part::parts)=(joinParts parts).map (c :: ·) := by
  have hcode : ∀ n, c.toNat=n → Char.ofNat n=c := by
    rintro n rfl
    exact Char.ofNat_toNat c
  unfold escapeChar
  split_ifs with hquote hslash _ _ _ _ _ hcontrol
  · exact ⟨.char '"',by simp [scanString,simpleEscape],fun parts => by simp [joinParts,hquote]⟩
  · exact ⟨.char '\\',by simp [scanString,simpleEscape],fun parts => by simp [joinParts,hslash]⟩
  iterate 5
    · exact ⟨.char c,by rw [← hcode _ ‹c.toNat=_›]; simp [scanString,simpleEscape],
        fun parts => by simp [joinParts]⟩
  · have hunit : hexUnit '0' '0' (hexChar (c.toNat / 16)) (hexChar (c.toNat % 16)) =
        some c.toNat := by
      have hzero : hexValue '0' = some 0 := by decide
      simp only [hexUnit,hzero,hexValue_hexChar (c.toNat / 16) (by omega),
        hexValue_hexChar (c.toNat % 16) (by omega),Option.some.injEq]
      omega
    refine ⟨.unit c.toNat,by simp [scanString,hunit],fun parts => ?_⟩
    have hlow : c.toNat<0xD800∨0xDFFF<c.toNat := by omega
    rw [joinParts.eq_def]
    simp only [hlow,if_true,Char.ofNat_toNat]
  · refine ⟨.char c,?_,fun parts => by simp [joinParts]⟩
    exact scanString_plain hquote hslash hcontrol rest

theorem scanString_flatMap (text rest : List Char) :
    ∃ parts, scanString (text.flatMap escapeChar ++ '"' :: rest)=some (parts,rest) ∧
      joinParts parts=some text := by
  induction text with
  | nil => exact ⟨[],by simp [scanString],rfl⟩
  | cons c text ih =>
    obtain ⟨parts,hscan,hjoin⟩ := ih
    obtain ⟨part,hpart,hcons⟩ := scanString_escapeChar c (text.flatMap escapeChar ++ '"' :: rest)
    refine ⟨part::parts,?_,?_⟩
    · rw [flatMap_cons,append_assoc,hpart,hscan]
      rfl
    · rw [hcons,hjoin]
      rfl

/-- A rendered string reads back after its opening quote. -/
theorem parseString_render (text : String) (rest : List Char) :
    parseString (text.toList.flatMap escapeChar ++ '"' :: rest)=some (text,rest) := by
  obtain ⟨parts,hscan,hjoin⟩ := scanString_flatMap text.toList rest
  simp [parseString,hscan,hjoin]

/-- The rest of a text after a value does not continue a number. -/
def Closed : List Char → Prop
  | [] => True
  | c::_ => c = ','∨c = ']'∨c = '}'

variable {rest : List Char} {value : Json}

theorem span_digits {digits : List Char} (hdigits : ∀ c∈digits, c.isDigit=true)
    (hrest : Closed rest) : (digits++rest).span Char.isDigit=(digits,rest) := by
  rw [span_eq_takeWhile_dropWhile]
  have hstop : rest.takeWhile Char.isDigit=[]∧rest.dropWhile Char.isDigit=rest := by
    cases rest with
    | nil => simp
    | cons => rcases hrest with rfl | rfl | rfl <;> simp [Char.isDigit]
  rw [takeWhile_append_of_pos hdigits,dropWhile_append_of_pos hdigits,hstop.1,hstop.2]
  simp

/-- Decimal digits of a positive number have no leading zero. -/
theorem toDigits_head (n : ℕ) (hn : 0<n) : (Nat.toDigits 10 n).head?≠some '0' := by
  induction n using Nat.strong_induction_on with
  | _ n ih =>
    by_cases hsmall : n<10
    · interval_cases n <;> decide
    rw [Nat.toDigits_of_base_le (by decide) (by omega)]
    have hquot := ih (n / 10) (by omega) (by omega)
    cases hdigits : Nat.toDigits 10 (n / 10) with
    | nil => exact absurd hdigits Nat.toDigits_ne_nil
    | cons =>
      rw [hdigits] at hquot
      simpa using hquot

theorem isDigit_toDigits (n : ℕ) : ∀ c∈Nat.toDigits 10 n, c.isDigit=true := fun _ hc =>
  Nat.isDigit_of_mem_toDigits (by decide) (by decide) hc

/-- Unsigned digits read back as their number. -/
theorem parseMagnitude_digits (n : ℕ) (hrest : Closed rest) (negative : Bool)
    (text : List Char) : parseMagnitude negative text (Nat.toDigits 10 n++rest) =
      some (.num (if negative then -(n : Int) else n),rest) := by
  have hlead : ¬ (Nat.toDigits 10 n=[] ∨
      ((Nat.toDigits 10 n).head?=some '0'∧(Nat.toDigits 10 n).length≠1)) := by
    rintro (hnil|⟨hhead,hlength⟩)
    · exact Nat.toDigits_ne_nil hnil
    · rcases Nat.eq_zero_or_pos n with rfl|hpos
      · simp at hlength
      · exact toDigits_head n hpos hhead
  have hfraction : parseFraction rest=some ([],rest) := by
    cases rest with
    | nil => rfl
    | cons => rcases hrest with rfl | rfl | rfl <;> rfl
  have hexponent : parseExponent rest=some (0,rest) := by
    cases rest with
    | nil => rfl
    | cons => rcases hrest with rfl | rfl | rfl <;> rfl
  rw [parseMagnitude,span_digits (isDigit_toDigits n) hrest]
  simp only [hlead,if_false,hfraction,hexponent]
  simp [numberValue,Nat.ofDigitChars_ten_toDigits]

/-- A rendered integer reads back. -/
theorem parseNumber_renderInt (n : Int) (hrest : Closed rest) :
    parseNumber (renderInt n++rest)=some (.num n,rest) := by
  unfold renderInt
  split_ifs with hneg
  · simp only [cons_append,parseNumber,parseMagnitude_digits n.natAbs hrest,if_true]
    congr 3
    omega
  · have habs : ((n.natAbs : ℕ) : Int)=n := by omega
    cases hdigits : Nat.toDigits 10 n.natAbs with
    | nil => exact absurd hdigits Nat.toDigits_ne_nil
    | cons d ds =>
      have hdigit := isDigit_toDigits n.natAbs d (by simp [hdigits])
      have hread := parseMagnitude_digits n.natAbs hrest false (d::ds++rest)
      rw [hdigits,habs] at hread
      rw [cons_append,parseNumber.eq_def]
      split
      · next heq =>
        cases heq
        simp [Char.isDigit] at hdigit
      · simpa using hread

mutual

/-- Fuel that suffices to read a value back. -/
def size : Json → ℕ
  | .arr items => 1+sizeItems items
  | .obj members => 1+sizeMembers members
  | _ => 1

/-- Fuel for items. -/
def sizeItems : List Json → ℕ
  | [] => 0
  | item::items => 1+size item+sizeItems items

/-- Fuel for members. -/
def sizeMembers : List (String×Json) → ℕ
  | [] => 0
  | (_,value)::members => 1+size value+sizeMembers members

end

/-- The characters with which a value can start. -/
theorem render_head (hvalue : Plain value) :
    ∃ c cs, render value=c::cs∧isSpace c=false∧c ≠ ']'∧c ≠ '}' := by
  cases hvalue with
  | null | str => exact ⟨_,_,rfl,by decide,by decide,by decide⟩
  | bool value => cases value <;> exact ⟨_,_,rfl,by decide,by decide,by decide⟩
  | num n =>
    simp only [render,renderInt]
    split_ifs
    · exact ⟨_,_,rfl,by decide,by decide,by decide⟩
    · cases hdigits : Nat.toDigits 10 n.natAbs with
      | nil => exact absurd hdigits Nat.toDigits_ne_nil
      | cons d ds =>
        have hdigit := isDigit_toDigits n.natAbs d (by simp [hdigits])
        refine ⟨d,ds,rfl,?_,?_,?_⟩
        · by_contra hspace
          simp only [isSpace,Bool.not_eq_false,Bool.or_eq_true,decide_eq_true_eq] at hspace
          simp only [Char.isDigit,Bool.and_eq_true,decide_eq_true_eq] at hdigit
          have hlow : 48≤d.toNat := hdigit.1
          omega
        · rintro rfl
          simp [Char.isDigit] at hdigit
        · rintro rfl
          simp [Char.isDigit] at hdigit
  | @arr items _ => cases items <;> exact ⟨_,_,rfl,by decide,by decide,by decide⟩
  | @obj members _ _ => cases members <;> exact ⟨_,_,rfl,by decide,by decide,by decide⟩

/-- A text that starts with no space is left alone. -/
theorem skipSpace_cons {c : Char} (hc : isSpace c=false) (cs : List Char) :
    skipSpace (c::cs)=c::cs := by
  simp [skipSpace,hc]

theorem skipSpace_render (hvalue : Plain value) (rest : List Char) :
    skipSpace (render value++rest)=render value++rest := by
  obtain ⟨c,cs,hrender,hspace,-,-⟩ := render_head hvalue
  rw [hrender,cons_append]
  exact skipSpace_cons hspace _

theorem parseValue_number (fuel : ℕ) {n : Int} (hrest : Closed rest) :
    parseValue (fuel+1) (renderInt n++rest)=some (.num n,rest) := by
  have hread := parseNumber_renderInt n hrest
  have hskip := skipSpace_render (.num n) rest
  have hhead : ∃ c cs, renderInt n++rest=c::cs∧(c = '-'∨c.isDigit=true) := by
    unfold renderInt
    split_ifs
    · exact ⟨_,_,rfl,.inl rfl⟩
    · cases hdigits : Nat.toDigits 10 n.natAbs with
      | nil => exact absurd hdigits Nat.toDigits_ne_nil
      | cons d => exact ⟨d,_,rfl,.inr (isDigit_toDigits n.natAbs d (by simp [hdigits]))⟩
  obtain ⟨c,cs,hcs,hc⟩ := hhead
  simp only [render] at hskip
  rw [hcs] at hread hskip ⊢
  rw [parseValue,hskip]
  split
  all_goals first
    | exact hread
    | (next heq =>
        have hfirst := (cons.inj heq).1
        subst hfirst
        simp [Char.isDigit] at hc)

/-- Distinct names make an object of exactly the members read. -/
theorem objectOf_of_nodup {members : List (String×Json)}
    (hnames : (members.map Prod.fst).Nodup) : objectOf members=.obj members := by
  have hfold : ∀ (rest acc : List (String×Json)), ((acc++rest).map Prod.fst).Nodup →
      rest.foldl (fun acc member => setMember acc member.1 member.2) acc=acc++rest := by
    intro rest
    induction rest with
    | nil => simp
    | cons member _ ih =>
      intro acc hnodup
      have hnew : (acc.any fun known => decide (known.1=member.1))=false := by
        rw [any_eq_false]
        intro known hknown hsame
        rw [map_append,nodup_append] at hnodup
        exact hnodup.2.2 known.1 (mem_map_of_mem hknown) member.1 (by simp) (by simpa using hsame)
      have hset : setMember acc member.1 member.2=acc++[member] := by simp [setMember,hnew]
      rw [foldl_cons,hset,ih _ (by simpa using hnodup)]
      simp
  rw [objectOf,hfold members [] (by simpa using hnames)]
  simp

/-- After an item comes a comma or the closing bracket. -/
theorem closed_renderItems (items : List Json) (rest : List Char) :
    Closed (renderItems items++rest) := by
  cases items <;> simp [renderItems,Closed]

/-- After a member comes a comma or the closing brace. -/
theorem closed_renderMembers (rest : List Char) :
    Closed (renderMembers members++rest) := by
  cases members with
  | nil => simp [renderMembers,Closed]
  | cons member => obtain ⟨name,value⟩ := member; simp [renderMembers,Closed]

mutual

theorem parseValue_render : ∀ (value : Json), Plain value→∀ (fuel : ℕ) (rest : List Char),
    size value≤fuel → Closed rest → parseValue fuel (render value++rest)=some (value,rest)
  | value, hvalue, 0, rest, hfuel, _ => by cases value <;> simp [size] at hfuel
  | .null, _, fuel+1, rest, _, _ => by simp [render,parseValue,skipSpace,isSpace]
  | .bool true, _, fuel+1, rest, _, _ => by simp [render,parseValue,skipSpace,isSpace]
  | .bool false, _, fuel+1, rest, _, _ => by simp [render,parseValue,skipSpace,isSpace]
  | .num n, _, fuel+1, rest, _, hrest => by
    exact parseValue_number fuel hrest
  | .real lexeme, hvalue, _, _, _, _ => by cases hvalue
  | .str text, _, fuel+1, rest, _, _ => by
    have hread := parseString_render text rest
    simp [render,renderString,parseValue,skipSpace,isSpace,hread]
  | .arr [],_,fuel+1,rest,_,_ => by simp [render,parseValue,skipSpace,isSpace]
  | .arr (item::items),hvalue,fuel+1,rest,hfuel,_ => by
    cases hvalue with
    | arr hitems =>
      have hread := parseItems_render item items (hitems item (by simp))
        (fun x hx => hitems x (by simp [hx])) fuel rest
        (by simp only [size,sizeItems] at hfuel ⊢; omega)
      obtain ⟨c,cs,hrender,hspace,hclose,-⟩ := render_head (hitems item (by simp))
      rw [hrender,cons_append] at hread
      rw [render,hrender,parseValue,cons_append,skipSpace_cons (by decide)]
      simp only [cons_append,append_assoc,skipSpace_cons hspace]
      split
      · next heq => exact absurd (cons.inj heq).1 hclose
      · rw [hread]
        rfl
  | .obj [],_,fuel+1,rest,_,_ => by simp [render,parseValue,skipSpace,isSpace]
  | .obj ((name,value)::members),hvalue,fuel+1,rest,hfuel,_ => by
    cases hvalue with
    | obj hnames hmembers =>
      have hread := parseMembers_render name value members (hmembers (name,value) (by simp))
        (fun x hx => hmembers x (by simp [hx])) fuel rest
        (by simp only [size,sizeMembers] at hfuel ⊢; omega)
      rw [render,parseValue,cons_append,skipSpace_cons (by decide)]
      simp only [renderString,cons_append,append_assoc,nil_append] at hread ⊢
      simp only [skipSpace_cons (show isSpace '"' = false by decide)]
      split
      · next heq => exact absurd (cons.inj heq).1 (by decide)
      · rw [hread,Option.map_some,objectOf_of_nodup hnames]

theorem parseItems_render : ∀ (item : Json) (items : List Json), Plain item →
    (∀ x∈items, Plain x)→∀ (fuel : ℕ) (rest : List Char), sizeItems (item::items)≤fuel →
    parseItems fuel (render item++(renderItems items++rest))=some (item::items,rest)
  | item, items, _, _, 0, rest, hfuel => by simp [sizeItems] at hfuel
  | item, [],hitem,_,fuel+1,rest,hfuel => by
    have hread := parseValue_render item hitem fuel (renderItems []++rest)
      (by simp only [sizeItems] at hfuel; omega) (closed_renderItems [] rest)
    rw [parseItems,hread]
    simp [renderItems,skipSpace,isSpace]
  | item, next::items, hitem, hitems, fuel+1, rest, hfuel => by
    have hread := parseValue_render item hitem fuel (renderItems (next::items)++rest)
      (by simp only [sizeItems] at hfuel; omega) (closed_renderItems (next::items) rest)
    have hmore := parseItems_render next items (hitems next (by simp))
      (fun x hx => hitems x (by simp [hx])) fuel rest
      (by simp only [sizeItems] at hfuel ⊢; omega)
    rw [parseItems,hread]
    simp only [renderItems,cons_append,append_assoc,
      skipSpace_cons (show isSpace ',' = false by decide)]
    rw [hmore]
    rfl

theorem parseMembers_render : ∀ (name : String) (value : Json) (members : List (String×Json)),
    Plain value→(∀ x∈members, Plain x.2)→∀ (fuel : ℕ) (rest : List Char),
    sizeMembers ((name,value)::members)≤fuel →
    parseMembers fuel (renderString name ++ ':' :: (render value ++
      (renderMembers members++rest)))=some ((name,value)::members,rest)
  | name, value, members, _, _, 0, rest, hfuel => by simp [sizeMembers] at hfuel
  | name, value, [],hvalue,_,fuel+1,rest,hfuel => by
    have hread := parseValue_render value hvalue fuel (renderMembers []++rest)
      (by simp only [sizeMembers] at hfuel; omega) (closed_renderMembers [] rest)
    have hname := parseString_render name (':' :: (render value++(renderMembers []++rest)))
    simp only [renderString,cons_append,append_assoc,nil_append] at hname ⊢
    rw [parseMembers,skipSpace_cons (by decide)]
    simp only [hname,skipSpace_cons (show isSpace ':' = false by decide),hread]
    simp [renderMembers,skipSpace,isSpace]
  | name, value, (next,second)::members,hvalue,hmembers,fuel+1,rest,hfuel => by
    have hread := parseValue_render value hvalue fuel (renderMembers ((next,second)::members)++rest)
      (by simp only [sizeMembers] at hfuel; omega)
      (closed_renderMembers ((next,second)::members) rest)
    have hname := parseString_render name
      (':' :: (render value++(renderMembers ((next,second)::members)++rest)))
    have hmore := parseMembers_render next second members (hmembers (next,second) (by simp))
      (fun x hx => hmembers x (by simp [hx])) fuel rest
      (by simp only [sizeMembers] at hfuel ⊢; omega)
    simp only [renderString,cons_append,append_assoc,nil_append] at hname hmore ⊢
    rw [parseMembers,skipSpace_cons (by decide)]
    simp only [hname,skipSpace_cons (show isSpace ':' = false by decide),hread]
    simp only [renderMembers,renderString,cons_append,append_assoc,nil_append,
      skipSpace_cons (show isSpace ',' = false by decide)]
    rw [hmore]
    rfl

end

mutual

/-- A text is long enough to be its own fuel. -/
theorem size_le_length : ∀ (value : Json), Plain value→size value≤(render value).length
  | .null, _ => by simp [size,render]
  | .bool true, _ => by simp [size,render]
  | .bool false, _ => by simp [size,render]
  | .num n, hvalue => by
    obtain ⟨c,cs,hrender,-⟩ := render_head hvalue
    simp [size,hrender]
  | .real lexeme, hvalue => by cases hvalue
  | .str text, _ => by simp [size,render,renderString]
  | .arr [],_ => by simp [size,sizeItems,render]
  | .arr (item::items),hvalue => by
    cases hvalue with
    | arr hitems =>
      have hhead := size_le_length item (hitems item (by simp))
      have htail := sizeItems_le_length items fun x hx => hitems x (by simp [hx])
      simp only [size,sizeItems,render,length_cons,length_append]
      omega
  | .obj [],_ => by simp [size,sizeMembers,render]
  | .obj ((name,value)::members),hvalue => by
    cases hvalue with
    | obj _ hmembers =>
      have hhead := size_le_length value (hmembers (name,value) (by simp))
      have htail := sizeMembers_le_length members fun x hx => hmembers x (by simp [hx])
      simp only [size,sizeMembers,render,length_cons,length_append]
      omega

/-- Item texts are long enough to be their own fuel. -/
theorem sizeItems_le_length : ∀ (items : List Json), (∀ x∈items, Plain x) →
    sizeItems items+1≤(renderItems items).length
  | [],_ => by simp [sizeItems,renderItems]
  | item::items, hitems => by
    have hhead := size_le_length item (hitems item (by simp))
    have htail := sizeItems_le_length items fun x hx => hitems x (by simp [hx])
    simp only [sizeItems,renderItems,length_cons,length_append]
    omega

/-- Member texts are long enough to be their own fuel. -/
theorem sizeMembers_le_length : ∀ (members : List (String×Json)),
    (∀ x∈members, Plain x.2)→sizeMembers members+1≤(renderMembers members).length
  | [],_ => by simp [sizeMembers,renderMembers]
  | (name,value)::members,hmembers => by
    have hhead := size_le_length value (hmembers (name,value) (by simp))
    have htail := sizeMembers_le_length members fun x hx => hmembers x (by simp [hx])
    simp only [sizeMembers,renderMembers,length_cons,length_append]
    omega

end

theorem parse_stringify (hvalue : Plain value) :
    parse (stringify value)=some value := by
  have hsize := size_le_length value hvalue
  have hread := parseValue_render value hvalue ((render value).length+1) [] (by omega) trivial
  rw [append_nil] at hread
  simp [parse,stringify,hread,skipSpace]

end SellRight.JsonText
