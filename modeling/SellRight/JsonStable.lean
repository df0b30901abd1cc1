import SellRight.JsonText
import SellRight.KeyedRecord

/-!
# JSON with sorted member names

`stable` sorts the members of every object by name, so that `serialize`
writes the same text for objects that differ only in the order of their
members. A value with distinct names reads the same members before and after.
-/

namespace SellRight.JsonStable

open JsonText List
open KeyedRecord (keys lookup lookup_map mem_of_lookup)

/-- Members in the order of their names. -/
def sortMembers (members : List (String×Json)) : List (String×Json) :=
  members.insertionSort fun a b => a.1≤b.1

mutual

/-- The value with every object's members sorted. -/
def stable : Json → Json
  | .arr items => .arr (stableItems items)
  | .obj members => .obj (sortMembers (stableMembers members))
  | value => value

def stableItems : List Json → List Json
  | [] => []
  | item::items => stable item::stableItems items

/-- Each member stable, in place. -/
def stableMembers : List (String×Json) → List (String×Json)
  | [] => []
  | (name,value)::members => (name,stable value)::stableMembers members

end

/-- Text of the stable value. -/
def serialize (value : Json) : String := stringify (stable value)

theorem stableItems_eq_map (items : List Json) : stableItems items=items.map stable := by
  induction items with
  | nil => rfl
  | cons _ _ ih => rw [stableItems,ih,map_cons]

section
variable (members : List (String×Json))

theorem stableMembers_eq_map :
    stableMembers members=members.map fun member => (member.1,stable member.2) := by
  induction members with
  | nil => rfl
  | cons member _ ih =>
    rw [stableMembers,ih,map_cons]

theorem sortMembers_perm : (sortMembers members).Perm members :=
  perm_insertionSort _ members

/-- Member names keep their multiplicity. -/
theorem names_stable_perm :
    ((sortMembers (stableMembers members)).map Prod.fst).Perm (members.map Prod.fst) := by
  have hper := (sortMembers_perm (stableMembers members)).map Prod.fst
  rw [stableMembers_eq_map,map_map] at hper
  rw [stableMembers_eq_map]
  exact hper

end

mutual

theorem plain_stable : ∀ (value : Json), Plain value → Plain (stable value)
  | .null, hval => hval
  | .bool _, hval => hval
  | .num _, hval => hval
  | .real _, hval => hval
  | .str _, hval => hval
  | .arr items, hval => by
    cases hval with
    | arr hite => exact .arr (plain_stableItems items hite)
  | .obj members, hval => by
    cases hval with
    | obj hnms hmemb =>
      refine .obj ((names_stable_perm members).nodup_iff.mpr hnms) ?_
      intro member hmem
      exact plain_stableMembers members hmemb member
        ((sortMembers_perm (stableMembers members)).mem_iff.mp hmem)

theorem plain_stableItems : ∀ (items : List Json), (∀ item∈items, Plain item) →
    ∀ item∈stableItems items, Plain item
  | [],_ => by simp [stableItems]
  | item::items, hite => by
    intro other hot
    rcases mem_cons.mp hot with rfl|hrt
    · exact plain_stable item (hite item (by simp))
    · exact plain_stableItems items (fun x hx => hite x (by simp [hx])) other hrt

theorem plain_stableMembers : ∀ (members : List (String×Json)),
    (∀ member∈members, Plain member.2)→∀ member∈stableMembers members, Plain member.2
  | [],_ => by simp [stableMembers]
  | (name,value)::members,hmem => by
    intro other hot
    rcases mem_cons.mp hot with rfl|hrt
    · exact plain_stable value (hmem (name,value) (by simp))
    · exact plain_stableMembers members (fun x hx => hmem x (by simp [hx])) other hrt

end

/-- Sorting the members of an object changes no reading. -/
theorem get_stable {members : List (String×Json)} (hnms : (members.map Prod.fst).Nodup)
    (name : String) :
    (stable (.obj members)).get name=((Json.obj members).get name).map stable := by
  have hsor := (names_stable_perm members).nodup_iff.mpr hnms
  change lookup (sortMembers (stableMembers members)) name =
    (lookup members name).map stable
  rw [← lookup_map members (fun _ => stable) name,← stableMembers_eq_map]
  cases hrd : lookup (stableMembers members) name with
  | some =>
    have hmem := mem_of_lookup hrd
    exact KeyedRecord.lookup_of_mem hsor
      ((sortMembers_perm (stableMembers members)).mem_iff.mpr hmem)
  | none =>
    cases hfd : lookup (sortMembers (stableMembers members)) name with
    | none => rfl
    | some =>
      have hmem := (sortMembers_perm _).mem_iff.mp (mem_of_lookup hfd)
      obtain ⟨other,hot⟩ := KeyedRecord.lookup_of_mem_keys
        (show name∈keys (stableMembers members) from mem_map_of_mem hmem)
      rw [hrd] at hot
      cases hot

/-- A written value reads back with its members sorted. -/
theorem parse_serialize {value : Json} (hval : Plain value) :
    parse (serialize value)=some (stable value) :=
  parse_stringify (plain_stable value hval)

end SellRight.JsonStable
