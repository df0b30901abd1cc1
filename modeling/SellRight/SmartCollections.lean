import Mathlib.Algebra.Order.Ring.Rat
import SellRight.OrderCodeLookups
import SellRight.SqlRows

/-!
# Smart collections

The rules of a collection choose its products twice: a function over the rows
of the admin list, and a condition of the storefront's query that the rules
are compiled to. They choose the same products where the database trims and
lowers texts as the runtime does. A price that is no integer of the database
makes the query fail.
-/

namespace SellRight.SmartCollections

open List SqlRows
open OrderCodeLookups (trim)

abbrev Text := List Char

/-- Number of the runtime other than NaN. -/
abbrev JsNumber := WithBot (WithTop ℚ)

def ofInt (n : ℤ) : JsNumber := WithBot.some (WithTop.some n)

/-- Lower case in the runtime and in the database, and numbers the runtime
reads, none for NaN. -/
structure World where
  (toLowerCase sqlLower : Text → Text)
  number : Text → Option JsNumber

inductive RuleField where
  | title | vendor | productType | tag | price

inductive RuleOp where
  | equals | contains | startsWith | gt | lt
  deriving DecidableEq

structure RuleCondition where
  field : RuleField
  op : RuleOp
  value : Text

/-- Rules match all conditions or any. -/
structure CollectionRules where
  all : Bool
  conditions : List RuleCondition

/-- Product with the prices of its variants and whether they are deleted. -/
structure Product where
  name : Text
  (vendor productType : Option Text)
  tags : Option (List Text)
  (active deleted : Bool)
  variants : List (ℤ×Bool)
  deriving DecidableEq

/-- Least price of the variants that are not deleted. -/
def Product.minPrice (p : Product) : Option ℤ := ((p.variants.filter (!·.2)).map Prod.fst).min?

/-- Text of a field, empty when it is missing. -/
def textField (p : Product) : RuleField → Text
  | .title => p.name
  | .vendor => p.vendor.getD []
  | _ => p.productType.getD []

def compareBy {α : Type} [LinearOrder α] (op : RuleOp) (a b : α) : Bool :=
  match op with
  | .gt => decide (b<a)
  | .lt => decide (a<b)
  | .equals => decide (a=b)
  | _ => false

def matchText (op : RuleOp) (v text : Text) : Bool :=
  match op with
  | .equals => decide (text=v)
  | .contains => decide (v <:+: text)
  | .startsWith => decide (v <+: text)
  | _ => false

def escapeLike (v : Text) : Text := v.flatMap fun c => if c∈['\\','%','_'] then ['\\',c] else [c]

/-- Condition on one text in the query. -/
inductive TextTest where
  | equals (v : Text)
  | like (pattern : Text)

def TextTest.holds : TextTest → Text → Bool
  | .equals v, text => decide (text=v)
  | .like pattern, text => SqlRows.like pattern text

def compileText (v : Text) : RuleOp → Option TextTest
  | .equals => some (.equals v)
  | .contains => some (.like ('%'::(escapeLike v++['%'])))
  | .startsWith => some (.like (escapeLike v++['%']))
  | _ => none

/-- Compiled condition. -/
inductive Predicate where
  | never
  | price (op : RuleOp) (target : JsNumber)
  | text (field : RuleField) (test : TextTest)
  | anyTag (test : TextTest)

/-- Integer a parameter is read as in a comparison with an integer column. -/
def int4 : JsNumber → Option ℤ
  | some (some q) => if q.den=1∧-2^31 ≤ q.num∧q.num<2^31 then some q.num else none
  | _ => none

/-- The query can be given the parameters of a condition. -/
def Predicate.binds : Predicate → Bool
  | .price _ target => (int4 target).isSome
  | _ => true

/-- Text without blanks around it. -/
def sqlTrim (text : Text) : Text :=
  ((text.dropWhile (· == ' ')).reverse.dropWhile (· == ' ')).reverse

section
variable (w : World) (rules : CollectionRules) (products : List Product) (p : Product)

def ci (text : Text) : Text := w.toLowerCase (trim text)

def matchOne (c : RuleCondition) : Bool :=
  match c.field with
  | .price =>
    match p.minPrice, w.number c.value with
    | some price, some target => compareBy c.op (ofInt price) target
    | _, _ => false
  | .tag => (p.tags.getD []).any fun tag => matchText c.op (ci w c.value) (ci w tag)
  | field => matchText c.op (ci w c.value) (ci w (textField p field))

def productMatchesRules : Bool :=
  if rules.conditions.isEmpty then false
  else if rules.all then rules.conditions.all (matchOne w p)
  else rules.conditions.any (matchOne w p)

/-- Products of the admin list. -/
def smartCollectionProducts : List Product :=
  (products.filter (!·.deleted)).filter (productMatchesRules w rules)

def compileCondition (c : RuleCondition) : Predicate :=
  match c.field with
  | .price =>
    match w.number c.value, c.op with
    | none, _ | _, .contains | _, .startsWith => .never
    | some target, op => .price op target
  | .tag => ((compileText (ci w c.value) c.op).map .anyTag).getD .never
  | field => ((compileText (ci w c.value) c.op).map (.text field)).getD .never

def compileRulesToSql : List Predicate := rules.conditions.map (compileCondition w)

/-- Trimmed lower-case text in the database. -/
def sqlCi (text : Text) : Text := w.sqlLower (sqlTrim text)

/-- Truth of a condition for a row. -/
def Predicate.truth : Predicate → Option Bool
  | .never => some false
  | .price op target => p.minPrice.bind fun price => (int4 target).map (compareBy op price)
  | .text field test => some (test.holds (sqlCi w (textField p field)))
  | .anyTag test => some ((p.tags.getD []).any fun tag => test.holds (sqlCi w tag))

/-- Truth of the conditions of a query together. -/
def combined : Option Bool :=
  let truths := (compileRulesToSql w rules).map (Predicate.truth w p)
  if truths.isEmpty then some false
  else if rules.all then sqlAnd truths
  else sqlOr truths

/-- Products of the storefront's page, none when its query fails. -/
def storefrontProducts : Option (List Product) :=
  if (compileRulesToSql w rules).all Predicate.binds then
    some (products.filter fun p => p.active&&!p.deleted&&holds (combined w rules p))
  else none

end

def Product.texts (p : Product) : List Text :=
  textField p .title::textField p .vendor::textField p .productType::p.tags.getD []

/-- The database trims and lowers a text as the runtime does. -/
structure SameText (w : World) (text : Text) : Prop where
  trim : sqlTrim text=trim text
  lower : w.sqlLower (OrderCodeLookups.trim text)=w.toLowerCase (OrderCodeLookups.trim text)

variable {w : World} {rules : CollectionRules} {products : List Product} {p : Product}
  {c : RuleCondition} {text : Text}

theorem SameText.sqlCi (h : SameText w text) : sqlCi w text=ci w text := by
  rw [SmartCollections.sqlCi,h.trim,h.lower]
  rfl

/-- An escaped value matches itself. -/
theorem like_escapeLike (v pattern text : Text) :
    like (escapeLike v++pattern) text=true ↔ ∃ rest, text=v++rest∧like pattern rest=true := by
  induction v generalizing text with
  | nil => simp [escapeLike]
  | cons c v ih =>
    have hstep : ∀ text, like ((if c∈['\\','%','_'] then ['\\',c] else [c]) ++
        (escapeLike v++pattern)) text=true ↔
          ∃ rest, text=c::rest∧like (escapeLike v++pattern) rest=true := by
      intro text
      split_ifs with hspe
      · cases text <;> simp [like,and_assoc]
      · simp only [mem_cons,not_mem_nil,or_false,not_or] at hspe
        cases text <;> simp [like,hspe,and_assoc]
    rw [escapeLike,flatMap_cons,append_assoc]
    refine (hstep text).trans ?_
    simp only [ih]
    simp

theorem like_any (text : Text) : like ['%'] text=true :=
  any_eq_true.mpr ⟨[],by simp,rfl⟩

/-- A compiled test of a text is the rule's. -/
theorem compileText_holds (v text : Text) (op : RuleOp) :
    ((compileText v op).map (·.holds text)).getD false=matchText op v text := by
  have hsta : ∀ text, like (escapeLike v++['%']) text=decide (v <+: text) := by
    intro text
    rw [Bool.eq_iff_iff,like_escapeLike,decide_eq_true_eq]
    simp only [like_any,and_true]
    exact exists_congr fun _ => eq_comm
  cases op with
  | equals | gt | lt => rfl
  | startsWith => exact hsta text
  | contains =>
    change text.tails.any (like (escapeLike v++['%']))=decide (v <:+: text)
    rw [Bool.eq_iff_iff,any_eq_true,decide_eq_true_eq,infix_iff_prefix_suffix]
    simp [hsta,and_comm]

theorem compareBy_cast (op : RuleOp) (a b : ℤ) :
    compareBy op (ofInt a) (ofInt b)=compareBy op a b := by
  cases op <;> simp [compareBy,ofInt]

theorem int4_eq_some {target : JsNumber} {n : ℤ} (h : int4 target=some n) :
    target=ofInt n := by
  unfold int4 at h
  split at h
  · next q =>
    split_ifs at h with hint
    cases h
    rw [ofInt,Rat.coe_int_num_of_den_eq_one hint.1]
    rfl
  · cases h

/-- A compiled condition holds of the products the rule matches. -/
theorem truth_matches (hrd : ∀ text∈p.texts, SameText w text)
    (hbin : (compileCondition w c).binds=true) :
    holds ((compileCondition w c).truth w p)=matchOne w p c := by
  have hcom : ∀ text, SameText w text →
      ((compileText (ci w c.value) c.op).map (·.holds (sqlCi w text))).getD false =
        matchText c.op (ci w c.value) (ci w text) := fun text hsam => by
    rw [compileText_holds,hsam.sqlCi]
  have htex : ∀ field, SameText w (textField p field) → holds ((((compileText (ci w c.value)
      c.op).map (Predicate.text field)).getD .never).truth w p) =
        matchText c.op (ci w c.value) (ci w (textField p field)) := by
    intro field hsam
    rw [← hcom _ hsam]
    cases compileText (ci w c.value) c.op with
    | none => rfl
    | some => exact holds_some _
  unfold compileCondition at hbin ⊢
  unfold matchOne
  cases hfie : c.field with
  | title | vendor | productType => exact htex _ (hrd _ (by simp [Product.texts]))
  | tag =>
    have hall : ((p.tags.getD []).any fun tag => matchText c.op (ci w c.value) (ci w tag)) =
        (p.tags.getD []).any fun tag =>
          ((compileText (ci w c.value) c.op).map (·.holds (sqlCi w tag))).getD false := by
      rw [Bool.eq_iff_iff,any_eq_true,any_eq_true]
      refine exists_congr fun tag => and_congr_right fun hin => ?_
      rw [hcom tag (hrd tag (by simp [Product.texts,hin]))]
    dsimp only
    rw [hall]
    cases compileText (ci w c.value) c.op with
    | none => simp [Predicate.truth]
    | some => exact holds_some _
  | price =>
    rw [hfie] at hbin
    dsimp only at hbin ⊢
    cases hnum : w.number c.value with
    | none => cases p.minPrice <;> rfl
    | some target =>
      have hcmp : (int4 target).isSome=true → holds ((Predicate.price c.op target).truth w p) =
          match p.minPrice, some target with
          | some price, some target => compareBy c.op (ofInt price) target
          | _, _ => false := by
        intro hint
        obtain ⟨n,hn⟩ := Option.isSome_iff_exists.mp hint
        cases int4_eq_some hn
        cases hmin : p.minPrice with
        | none => simp [Predicate.truth,hmin]
        | some price =>
          simp only [Predicate.truth,hmin,hn,Option.bind_some,Option.map_some,holds_some]
          exact (compareBy_cast c.op price n).symm
      rw [hnum] at hbin
      cases hop : c.op with
      | contains | startsWith => cases p.minPrice <;> rfl
      | gt | lt | equals =>
        rw [hop] at hbin hcmp
        exact hcmp hbin

/-- A condition cannot be bound when it compares prices with a number that is
no integer of the database. -/
theorem binds_eq_false : (compileCondition w c).binds=false ↔
    c.field=.price∧c.op≠.contains∧c.op≠.startsWith∧
      ∃ target, w.number c.value=some target∧int4 target=none := by
  have htex : ∀ f : TextTest → Predicate, (∀ test, (f test).binds=true) →
      (((compileText (ci w c.value) c.op).map f).getD .never).binds=true := by
    intro f hall
    cases compileText (ci w c.value) c.op with
    | none => rfl
    | some test => exact hall test
  unfold compileCondition
  cases c.field with
  | title | vendor | productType => simp [htex (.text _) fun _ => rfl]
  | tag => simp [htex .anyTag fun _ => rfl]
  | price =>
    cases hnum : w.number c.value with
    | none => simp [Predicate.binds]
    | some target => cases c.op <;> simp [Predicate.binds]

/-- The storefront's page of a collection fails exactly when a condition
compares prices with a number that is no integer of the database. Else it has
the active products of the admin list, for products whose texts the database
trims and lowers as the runtime does. -/
theorem smart_collections_agree (hrd : ∀ p∈products, ∀ text∈p.texts, SameText w text) :
    (storefrontProducts w rules products=none ↔ ∃ c∈rules.conditions,
      c.field=.price∧c.op≠.contains∧c.op≠.startsWith∧
        ∃ target, w.number c.value=some target∧int4 target=none)∧
    ∀ rows, storefrontProducts w rules products=some rows →
      rows=(smartCollectionProducts w rules products).filter Product.active := by
  unfold storefrontProducts
  constructor
  · simp [compileRulesToSql,binds_eq_false]
  · intro rows hrow
    split_ifs at hrow with hbin
    cases hrow
    have hone : ∀ p∈products, ∀ c∈rules.conditions,
        holds ((compileCondition w c).truth w p)=matchOne w p c := fun p hp c hc =>
      truth_matches (hrd p hp) (all_eq_true.mp hbin _ (mem_map_of_mem hc))
    have hcom : ∀ p∈products, holds (combined w rules p)=productMatchesRules w rules p := by
      intro p hp
      unfold combined productMatchesRules compileRulesToSql
      simp only [map_map,isEmpty_map]
      split_ifs
      · rfl
      · rw [holds_sqlAnd,Bool.eq_iff_iff]
        simp +contextual [hone p hp]
      · rw [holds_sqlOr,Bool.eq_iff_iff,any_map,any_eq_true,any_eq_true]
        exact exists_congr fun c => and_congr_right fun hin => by simp [hone p hp c hin]
    rw [smartCollectionProducts,filter_filter,filter_filter]
    refine filter_congr fun p hp => ?_
    rw [hcom p hp]
    cases p.active <;> cases p.deleted <;> simp

/-- Rules for a title with a percent sign and a price over ten choose one of
two mugs for both lists. -/
theorem smart_collections_agree_mugs :
    let lower : Text → Text := map Char.toLower
    let w : World := ⟨lower,lower,fun text => if text=['1','0'] then some (ofInt 10) else none⟩
    let rules : CollectionRules := ⟨true,[⟨.title,.contains,['0','%']⟩,⟨.price,.gt,['1','0']⟩]⟩
    let mug (name : Text) : Product := ⟨name,none,none,some [[' ','M']],true,false,[(12,false)]⟩
    let products := [mug ['5','0','%'],mug ['5','0','0']]
    (storefrontProducts w rules products).isSome=true∧
      ∀ rows, storefrontProducts w rules products=some rows → rows=[mug ['5','0','%']] := by
  intro lower w rules mug products
  have htri : ∀ p∈products, ∀ text∈p.texts, sqlTrim text=trim text := by decide
  have hagr := @smart_collections_agree w rules products fun p hp text hin =>
    ⟨htri p hp text hin,rfl⟩
  refine ⟨by decide,fun rows hrow => (hagr.2 rows hrow).trans ?_⟩
  decide

end SellRight.SmartCollections
