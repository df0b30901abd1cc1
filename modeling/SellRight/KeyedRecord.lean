import SellRight.RowTable

/-!
# Records with named entries

A record is the list of its entries in insertion order, each a key with its
value. Reading takes the first entry of a key, and `modify` rewrites a value
in place. The structure `Record` carries that its keys are distinct, so a
record is determined by its keys and its readings.
-/

namespace SellRight.KeyedRecord

open RowTable List

variable {κ β γ : Type} [DecidableEq κ]

section
variable (entries : List (κ×β))

/-- Keys of a record in insertion order. -/
def keys : List κ := entries.map Prod.fst

/-- Value under a key. -/
def lookup (key : κ) : Option β :=
  (entries.find? fun entry => entry.1=key).map Prod.snd

/-- Rewrite the value under a key. -/
def modify (key : κ) (f : β → β) : List (κ×β) :=
  entries.map fun entry => if entry.1=key then (entry.1,f entry.2) else entry

end

/-- Reading the first entry. -/
theorem lookup_cons (entry : κ×β) (entries : List (κ×β)) (key : κ) :
    lookup (entry::entries) key = if entry.1=key then some entry.2 else lookup entries key := by
  by_cases hkey : entry.1=key <;> simp [lookup,hkey]

variable {key : κ} {value : β}

section
variable {entries : List (κ×β)}

/-- An entry of a record with distinct keys is what its key reads. -/
theorem lookup_of_mem (hnod : (keys entries).Nodup)
    (hmem : (key,value)∈entries) : lookup entries key=some value :=
  congrArg (Option.map Prod.snd) (find_key_self Prod.fst hnod hmem)

/-- What a key reads is an entry. -/
theorem mem_of_lookup
    (hrd : lookup entries key=some value) : (key,value)∈entries := by
  obtain ⟨entry,hfd,rfl⟩ := Option.map_eq_some_iff.mp hrd
  obtain ⟨hmem,rfl⟩ := find_key_eq_some Prod.fst hfd
  exact hmem

/-- A key of the record reads a value. -/
theorem lookup_of_mem_keys (hkey : key∈keys entries) :
    ∃ value, lookup entries key=some value := by
  obtain ⟨entry,hmem,rfl⟩ := mem_map.mp hkey
  refine Option.isSome_iff_exists.mp ?_
  rw [lookup,Option.isSome_map,List.find?_isSome]
  exact ⟨entry,hmem,decide_eq_true rfl⟩

end

variable (entries : List (κ×β))

/-- Rewriting a value updates the row of its key. -/
theorem modify_eq (key : κ) (f : β → β) : modify entries key f =
    updateWhere (fun entry => decide (entry.1=key)) (fun entry => (entry.1,f entry.2)) entries := by
  simp only [modify,updateWhere,decide_eq_true_eq]

/-- Rewriting a value keeps the keys. -/
@[simp] theorem keys_modify (key : κ) (f : β → β) :
    keys (modify entries key f)=keys entries := by
  rw [modify_eq]
  exact map_updateWhere Prod.fst entries fun _ _ => rfl

/-- Reading after a rewrite. -/
theorem lookup_modify (key other : κ) (f : β → β) :
    lookup (modify entries key f) other =
      if other=key then (lookup entries other).map f else lookup entries other := by
  rw [lookup,lookup,modify_eq,find_key_updateWhere (f := fun entry => (entry.1,f entry.2))
    Prod.fst key other fun _ => rfl]
  split_ifs
  · rw [Option.map_map,Option.map_map]
    rfl
  · rw [Option.map_id_fun,id]

/-- Distinct keys and equal readings make equal records. -/
theorem eq_of_lookup {entries others : List (κ×β)} (hnod : (keys entries).Nodup)
    (hks : keys entries=keys others)
    (hrd : ∀ key∈keys entries, lookup entries key=lookup others key) : entries=others := by
  induction entries generalizing others with
  | nil =>
    cases others with
    | nil => rfl
    | cons => simp [keys] at hks
  | cons entry entries ih =>
    cases others with
    | nil => simp [keys] at hks
    | cons _ others =>
      simp only [keys,map_cons,List.cons.injEq,nodup_cons] at hks hnod
      obtain ⟨hhd,htl⟩ := hks
      have hval := hrd entry.1 (by simp [keys])
      rw [lookup_cons,lookup_cons,if_pos rfl,if_pos hhd.symm] at hval
      have hrt : entries=others := by
        apply ih hnod.2 htl
        intro key hkey
        have hne : entry.1≠key := fun heq => hnod.1 (heq ▸ hkey)
        have hbo := hrd key (by simp only [keys,map_cons]; exact mem_cons_of_mem _ hkey)
        rwa [lookup_cons,lookup_cons,if_neg hne,if_neg (hhd ▸ hne)] at hbo
      rw [hrt,Prod.ext hhd (Option.some.inj hval)]

/-- Mapping the values of a record. -/
theorem lookup_map (f : κ → β → γ) (key : κ) :
    lookup (entries.map fun entry => (entry.1,f entry.1 entry.2)) key =
      (lookup entries key).map (f key) := by
  induction entries with
  | nil => simp [lookup]
  | cons entry _ ih =>
    rw [map_cons,lookup_cons,lookup_cons,ih]
    by_cases hkey : entry.1=key
    · subst hkey
      simp
    · simp [hkey]

/-- A measure summed over the values after one of them is rewritten. -/
theorem sum_modify (measure : β → ℤ) {entries : List (κ×β)} (hnod : (keys entries).Nodup)
    (hrd : lookup entries key=some value) (f : β → β) :
    ((modify entries key f).map fun entry => measure entry.2).sum =
      (entries.map fun entry => measure entry.2).sum+(measure (f value)-measure value) := by
  rw [modify_eq]
  exact sum_update_key Prod.fst (fun entry => measure entry.2) hnod (mem_of_lookup hrd)

/-- Entries with distinct keys. -/
structure Record (κ β : Type) where
  entries : List (κ×β)
  distinct : (keys entries).Nodup
  deriving DecidableEq

namespace Record

variable (record : Record κ β)

/-- Value under a key. -/
def get (key : κ) : Option β := lookup record.entries key

/-- Record without entries. -/
def empty : Record κ β := ⟨[],by simp [keys]⟩

/-- Record of one entry. -/
def single (key : κ) (value : β) : Record κ β := ⟨[(key,value)],by simp [keys]⟩

section
variable (record : Record κ β)

/-- Rewrite the value under a key. -/
def update (key : κ) (f : β → β) : Record κ β :=
  ⟨modify record.entries key f,by simpa using record.distinct⟩

/-- Give every entry a value computed from it. -/
def mapValues (f : κ → β → γ) : Record κ γ :=
  ⟨record.entries.map fun entry => (entry.1,f entry.1 entry.2),by
    have hkeys : keys (record.entries.map fun entry => (entry.1,f entry.1 entry.2)) =
        keys record.entries := by simp [keys]
    exact hkeys ▸ record.distinct⟩

/-- Assign a key: a known key keeps its place, a new one comes last. -/
def set (key : κ) (value : β) : Record κ β :=
  if hknown : key∈keys record.entries then record.update key fun _ => value
  else ⟨record.entries++[(key,value)],by
    have hfresh : ∀ other∈keys record.entries, other≠key :=
      fun other hother hsame => hknown (hsame ▸ hother)
    simp only [keys,map_append,nodup_append,map_cons,map_nil]
    exact ⟨record.distinct,by simp,fun other hother key' hkey' => by
      rw [mem_singleton.mp hkey']; exact hfresh other hother⟩⟩

end

/-- Records with the same keys and readings are equal. -/
theorem eq_of_get {record other : Record κ β} (hks : keys record.entries=keys other.entries)
    (hrd : ∀ key∈keys record.entries, record.get key=other.get key) : record=other := by
  have hent := eq_of_lookup record.distinct hks hrd
  cases record
  cases other
  simpa using hent

/-- Keys of an updated record. -/
@[simp] theorem keys_update (key : κ) (f : β → β) :
    keys (record.update key f).entries=keys record.entries :=
  keys_modify record.entries key f

omit [DecidableEq κ] in
/-- Keys of a mapped record. -/
@[simp] theorem keys_mapValues (f : κ → β → γ) :
    keys (record.mapValues f).entries=keys record.entries := by
  simp [keys,mapValues]

section
variable (record : Record κ β)

/-- Reading an updated record. -/
theorem get_update (key other : κ) (f : β → β) :
    (record.update key f).get other =
      if other=key then (record.get other).map f else record.get other :=
  lookup_modify record.entries key other f

/-- Reading a mapped record. -/
theorem get_mapValues (f : κ → β → γ) (key : κ) :
    (record.mapValues f).get key=(record.get key).map (f key) :=
  lookup_map record.entries f key

/-- Reading after an assignment. -/
theorem get_set (key other : κ) (value : β) :
    (record.set key value).get other=if other=key then some value else record.get other := by
  rw [set]
  split
  · next hkn =>
    rw [get_update]
    by_cases hot : other=key
    · subst hot
      obtain ⟨old,hold⟩ := lookup_of_mem_keys hkn
      have hrd : record.get other=some old := hold
      rw [if_pos rfl,if_pos rfl,hrd,Option.map_some]
    · rw [if_neg hot,if_neg hot]
  · next hkn =>
    rw [get,get,lookup,lookup,List.find?_append]
    by_cases hot : other=key
    · have hno : record.entries.find? (fun entry => decide (entry.1=other))=none :=
        List.find?_eq_none.mpr fun entry hent heq =>
          hkn (mem_map.mpr ⟨entry,hent,(of_decide_eq_true heq).trans hot⟩)
      rw [hno,if_pos hot]
      simp [hot]
    · simp [hot,Ne.symm hot]

end

/-- An update with the value read changes nothing. -/
theorem update_self {record : Record κ β}
    (hrd : record.get key=some value) : record.update key (fun _ => value)=record := by
  refine eq_of_get (by simp) ?_
  intro other _
  rw [get_update]
  by_cases hot : other=key
  · rw [if_pos hot,hot,hrd,Option.map_some]
  · rw [if_neg hot]

/-- Two updates of one key are one. -/
theorem update_update (key : κ) (f g : β → β) :
    (record.update key f).update key g=record.update key fun value => g (f value) := by
  refine eq_of_get (by simp) ?_
  intro other _
  simp only [get_update]
  by_cases hot : other=key <;> simp [hot,Function.comp_def]

section
variable {record : Record κ β}

/-- A key of the record reads a value. -/
theorem get_isSome (hkey : key∈keys record.entries) : ∃ value, record.get key=some value :=
  lookup_of_mem_keys hkey

/-- An entry is what its key reads. -/
theorem get_of_mem (hmem : (key,value)∈record.entries) : record.get key=some value :=
  lookup_of_mem record.distinct hmem

/-- What a key reads is an entry. -/
theorem mem_of_get (hrd : record.get key=some value) : (key,value)∈record.entries :=
  mem_of_lookup hrd

end

end Record

end SellRight.KeyedRecord
