/-!
# Dictionaries kept in ascending key order

`Ascending` is the type of entries whose keys ascend, so a dictionary is in order by construction
and is determined by its look-ups (`ext_find?`). For insertion, removal and the mapping of values it
is said what a look-up finds afterwards.
-/
namespace SceneGraph

/-- The key lies above an optional lower bound. Text is ordered by code points. -/
def Above : Option String → String → Prop
  | none, _ => True
  | some low, key => low < key

instance instDecidableAbove : (low : Option String) → (key : String) → Decidable (Above low key)
  | none, _ => isTrue trivial
  | some low, key => inferInstanceAs (Decidable (low < key))

theorem Above.trans {low : Option String} {key higher : String} (h : Above low key)
    (h' : Above (some key) higher) : Above low higher := by
  cases low with
  | none => trivial
  | some low => exact String.lt_trans h h'

/-- Entries in strictly ascending key order, all above `low`. No key occurs twice, so two
dictionaries that answer every look-up alike are the same value. -/
inductive Ascending (α : Type) : Option String → Type
  | nil {low : Option String} : Ascending α low
  | cons {low : Option String} (key : String) (above : Above low key) (value : α)
      (rest : Ascending α (some key)) : Ascending α low

/-- A dictionary is a list of entries without a lower bound. -/
abbrev Dict (α : Type) := Ascending α none

namespace Ascending
variable {α β : Type} {low : Option String}

def find? : {low : Option String} → Ascending α low → String → Option α
  | _, .nil, _ => none
  | _, .cons k _ v rest, key => if key = k then some v else rest.find? key

def contains (entries : Ascending α low) (key : String) : Bool := (entries.find? key).isSome

def toList : {low : Option String} → Ascending α low → List (String × α)
  | _, .nil => []
  | _, .cons k _ v rest => (k, v) :: rest.toList

def keys (entries : Ascending α low) : List String := entries.toList.map (·.1)
def values (entries : Ascending α low) : List α := entries.toList.map (·.2)
def size (entries : Ascending α low) : Nat := entries.toList.length

/-- Entries above a key also lie above every bound of that key. -/
def lower {key : String} (h : Above low key) : Ascending α (some key) → Ascending α low
  | .nil => .nil
  | .cons k above v rest => .cons k (h.trans above) v rest

def insertAbove (key : String) (value : α) :
    {low : Option String} → Above low key → Ascending α low → Ascending α low
  | _, h, .nil => .cons key h value .nil
  | _, h, .cons k above v rest =>
    if hk : key < k then .cons key h value (.cons k hk v rest)
    else if hk' : k < key then .cons k above v (rest.insertAbove key value hk')
    else .cons k above value rest

def erase : {low : Option String} → Ascending α low → String → Ascending α low
  | _, .nil, _ => .nil
  | _, .cons k above v rest, key =>
    if key = k then rest.lower above else .cons k above v (rest.erase key)

def mapValues (f : α → β) : {low : Option String} → Ascending α low → Ascending β low
  | _, .nil => .nil
  | _, .cons k above v rest => .cons k above (f v) (rest.mapValues f)

/-- Same keys, with values related by `same` pairwise. -/
def agrees (same : α → α → Bool) :
    {low low' : Option String} → Ascending α low → Ascending α low' → Bool
  | _, _, .nil, .nil => true
  | _, _, .cons k _ v rest, .cons k' _ v' rest' => k == k' && same v v' && rest.agrees same rest'
  | _, _, _, _ => false

@[simp] theorem find?_nil (key : String) : (nil : Ascending α low).find? key = none := rfl

@[simp] theorem find?_cons (k : String) (above : Above low k) (v : α)
    (rest : Ascending α (some k)) (key : String) :
    (cons k above v rest).find? key = if key = k then some v else rest.find? key := rfl

theorem find?_eq_none_of_not_above {key : String} (entries : Ascending α low)
    (h : ¬ Above low key) : entries.find? key = none := by
  induction entries with
  | nil => rfl
  | cons k above v rest ih =>
    have hk : key ≠ k := fun e => h (e ▸ above)
    simp only [find?_cons, if_neg hk]
    exact ih fun h' => h (above.trans h')

@[simp] theorem find?_lower {key : String} (h : Above low key) (entries : Ascending α (some key))
    (k : String) : (entries.lower h).find? k = entries.find? k := by
  cases entries <;> rfl

theorem find?_insertAbove {key : String} (value : α) (h : Above low key)
    (entries : Ascending α low) (k : String) :
    (entries.insertAbove key value h).find? k = if k = key then some value else entries.find? k := by
  induction entries with
  | nil => rfl
  | cons k' above v rest ih =>
    unfold insertAbove
    split
    · rfl
    · rename_i hlt
      split
      · rename_i hgt
        simp only [find?_cons, ih hgt]
        by_cases hk : k = k'
        · have : k ≠ key := fun e => String.lt_irrefl key (by rw [← e, hk] at hgt ⊢; exact hgt)
          rw [if_pos hk, if_neg this, if_pos hk]
        · simp [hk]
      · rename_i hgt
        have e : key = k' :=
          String.le_antisymm (String.not_lt.1 hgt) (String.not_lt.1 hlt)
        by_cases hk : k = k' <;> simp [hk, e]

theorem find?_erase (entries : Ascending α low) (key k : String) :
    (entries.erase key).find? k = if k = key then none else entries.find? k := by
  induction entries with
  | nil => simp [erase]
  | cons k' above v rest ih =>
    unfold erase
    by_cases e : key = k'
    · simp only [if_pos e, find?_lower, find?_cons]
      by_cases hk : k = key
      · rw [if_pos hk]
        exact find?_eq_none_of_not_above rest
          (by rw [hk, e]; exact String.lt_irrefl k')
      · simp [hk, show k ≠ k' from fun h => hk (h.trans e.symm)]
    · simp only [if_neg e, find?_cons, ih]
      by_cases hk : k = key
      · simp [hk, e]
      · simp [hk]

/-- Entries are determined by what a look-up finds. -/
theorem ext_find? {entries entries' : Ascending α low}
    (h : ∀ key, entries.find? key = entries'.find? key) : entries = entries' := by
  induction entries with
  | nil =>
    cases entries' with
    | nil => rfl
    | cons k above v rest => simpa using h k
  | cons k above v rest ih =>
    cases entries' with
    | nil => simpa using h k
    | cons k' above' v' rest' =>
      have e : k = k' := by
        have hk := h k
        have hk' := h k'
        simp only [find?_cons, if_true] at hk hk'
        by_cases e : k = k'
        · exact e
        · rw [if_neg e] at hk
          rw [if_neg (Ne.symm e)] at hk'
          have lt : k' < k := Decidable.byContradiction fun n =>
            nomatch hk.trans (find?_eq_none_of_not_above rest' n)
          have lt' : k < k' := Decidable.byContradiction fun n =>
            nomatch hk'.symm.trans (find?_eq_none_of_not_above rest n)
          exact absurd (String.lt_trans lt lt') (String.lt_irrefl k')
      subst e
      have hv : v = v' := by simpa using h k
      have hr : rest = rest' := ih fun key => by
        by_cases hk : key = k
        · subst hk
          rw [find?_eq_none_of_not_above rest (String.lt_irrefl key),
            find?_eq_none_of_not_above rest' (String.lt_irrefl key)]
        · simpa [hk] using h key
      subst hv hr
      rfl

@[simp] theorem find?_mapValues (f : α → β) (entries : Ascending α low) (key : String) :
    (entries.mapValues f).find? key = (entries.find? key).map f := by
  induction entries with
  | nil => rfl
  | cons k above v rest ih => simp only [mapValues, find?_cons, ih]; split <;> rfl

def decEq [DecidableEq α] : {low : Option String} → (a b : Ascending α low) → Decidable (a = b)
  | _, .nil, .nil => isTrue rfl
  | _, .nil, .cons .. => isFalse nofun
  | _, .cons .., .nil => isFalse nofun
  | _, .cons k above v rest, .cons k' above' v' rest' =>
    if hk : k = k' then by
      subst hk
      exact if hv : v = v' then
        match decEq rest rest' with
        | isTrue hr => isTrue (by rw [hv, hr])
        | isFalse hr => isFalse fun h => hr (by injection h)
      else isFalse fun h => hv (by injection h)
    else isFalse fun h => hk (by injection h)

instance [DecidableEq α] : DecidableEq (Ascending α low) := decEq
instance : Inhabited (Ascending α low) := ⟨.nil⟩
instance : EmptyCollection (Ascending α low) := ⟨.nil⟩
instance [BEq α] : BEq (Ascending α low) := ⟨agrees (· == ·)⟩

end Ascending

namespace Dict
variable {α : Type}

def insert (entries : Dict α) (key : String) (value : α) : Dict α :=
  entries.insertAbove key value trivial

@[simp] theorem find?_insert (entries : Dict α) (key : String) (value : α) (k : String) :
    (entries.insert key value).find? k = if k = key then some value else entries.find? k :=
  Ascending.find?_insertAbove value (show Above none key from trivial) entries k

/-- A later entry replaces an earlier one with the same key. -/
def ofList (entries : List (String × α)) : Dict α :=
  entries.foldl (fun dict entry => dict.insert entry.1 entry.2) .nil

/-- Puts `f`'s result in place of the value at the key, if there is one. -/
def modify (entries : Dict α) (key : String) (f : α → α) : Dict α :=
  match entries.find? key with
  | some value => entries.insert key (f value)
  | none => entries

theorem find?_modify (entries : Dict α) (key : String) (f : α → α) (k : String) :
    (entries.modify key f).find? k =
      if k = key then (entries.find? key).map f else entries.find? k := by
  unfold modify
  split
  · rename_i v h; simp [h]
  · rename_i h; by_cases hk : k = key <;> simp [hk, h]

end Dict

/-- A set of texts, listed in ascending order. -/
abbrev TextSet := Dict Unit

def TextSet.ofList (texts : List String) : TextSet := Dict.ofList (texts.map (·, ()))

end SceneGraph
