import SceneGraph.Dictionaries
import Mathlib.Data.List.Nodup

/-!
# Laws of dictionaries: entries, keys, and writes that cancel

A look-up is tied to the list of entries, to the keys and to the values. Insertions and removals
that cancel leave the same dictionary, and a dictionary made from a list holds the last value of
each key.
-/
namespace SceneGraph

namespace Ascending
variable {α : Type} {low : Option String}

theorem contains_iff {entries : Ascending α low} {key : String} :
    entries.contains key = true ↔ ∃ value, entries.find? key = some value := by
  simp [contains, Option.isSome_iff_exists]

theorem not_contains_iff {entries : Ascending α low} {key : String} :
    entries.contains key = false ↔ entries.find? key = none := by
  simp [contains]

private theorem above_of_mem {entries : Ascending α low} {entry : String × α}
    (h : entry ∈ entries.toList) : Above low entry.1 := by
  induction entries with
  | nil => simp [toList] at h
  | cons k above v rest ih =>
    rcases List.mem_cons.mp h with rfl | h
    · exact above
    · exact above.trans (ih h)

theorem mem_toList_iff {entries : Ascending α low} {key : String} {value : α} :
    (key, value) ∈ entries.toList ↔ entries.find? key = some value := by
  induction entries with
  | nil => simp [toList]
  | cons k above v rest ih =>
    simp only [toList, List.mem_cons, Prod.mk.injEq, find?_cons]
    by_cases hk : key = k
    · subst hk
      have hr : (key, value) ∉ rest.toList := fun h => String.lt_irrefl key (above_of_mem h)
      simp [hr, eq_comm]
    · simp [hk, ih]

theorem mem_keys_iff {entries : Ascending α low} {key : String} :
    key ∈ entries.keys ↔ ∃ value, entries.find? key = some value := by
  simp [keys, ← mem_toList_iff]

theorem mem_values_iff {entries : Ascending α low} {value : α} :
    value ∈ entries.values ↔ ∃ key, entries.find? key = some value := by
  simp [values, ← mem_toList_iff]

theorem keys_nodup (entries : Ascending α low) : entries.keys.Nodup := by
  induction entries with
  | nil => exact List.nodup_nil
  | cons k above v rest ih =>
    refine List.nodup_cons.mpr ⟨fun h => ?_, ih⟩
    obtain ⟨entry, he, hk⟩ := List.mem_map.mp h
    have ha : k < entry.1 := above_of_mem he
    rw [hk] at ha
    exact String.lt_irrefl k ha

theorem keys_ascending (entries : Ascending α low) : entries.keys.Pairwise (· < ·) := by
  induction entries with
  | nil => exact .nil
  | cons k above v rest ih =>
    refine List.pairwise_cons.mpr ⟨fun key hkey => ?_, ih⟩
    obtain ⟨entry, he, rfl⟩ := List.mem_map.mp hkey
    exact above_of_mem he

theorem length_keys (entries : Ascending α low) : entries.keys.length = entries.size := by
  simp [keys, size]

/-- Distinct keys of a dictionary are no more than its entries. -/
theorem length_le_size {entries : Ascending α low} {keys : List String} (hn : keys.Nodup)
    (h : ∀ key ∈ keys, ∃ value, entries.find? key = some value) : keys.length ≤ entries.size := by
  rw [← length_keys]
  exact hn.length_le_of_subset fun key hk => mem_keys_iff.mpr (h key hk)

theorem toList_lower {key : String} (above : Above low key) (entries : Ascending α (some key)) :
    (entries.lower above).toList = entries.toList := by
  cases entries <;> rfl

theorem toList_erase (entries : Ascending α low) (key : String) :
    (entries.erase key).toList = entries.toList.filter (·.1 ≠ key) := by
  induction entries with
  | nil => rfl
  | cons k above v rest ih =>
    unfold erase
    by_cases hk : key = k
    · have hr : ∀ entry ∈ rest.toList, entry.1 ≠ key := by
        intro entry he h
        have ha : k < entry.1 := above_of_mem he
        exact String.lt_irrefl k (by rwa [h, hk] at ha)
      have hf : rest.toList.filter (·.1 ≠ key) = rest.toList :=
        List.filter_eq_self.mpr fun entry he => by simpa using hr entry he
      rw [if_pos hk, toList_lower, toList, List.filter_cons_of_neg (by simp [hk]), hf]
    · rw [if_neg hk]
      simp only [toList, ih]
      simp [Ne.symm hk]

theorem erase_of_find?_none {entries : Ascending α low} {key : String}
    (h : entries.find? key = none) : entries.erase key = entries := by
  apply ext_find?
  intro k
  rw [find?_erase]
  by_cases hk : k = key
  · rw [if_pos hk, hk, h]
  · rw [if_neg hk]

end Ascending

namespace Dict
variable {α : Type}

@[simp] theorem insert_insert (entries : Dict α) (key : String) (v w : α) :
    (entries.insert key v).insert key w = entries.insert key w := by
  apply Ascending.ext_find?
  intro k
  simp only [find?_insert]
  split <;> rfl

@[simp] theorem erase_insert (entries : Dict α) (key : String) (v : α) :
    (entries.insert key v).erase key = entries.erase key := by
  apply Ascending.ext_find?
  intro k
  simp only [Ascending.find?_erase, find?_insert]
  split <;> rfl

@[simp] theorem insert_erase (entries : Dict α) (key : String) (v : α) :
    Dict.insert (entries.erase key) key v = entries.insert key v := by
  apply Ascending.ext_find?
  intro k
  simp only [Ascending.find?_erase, find?_insert]
  split <;> rfl

theorem insert_of_find? {entries : Dict α} {key : String} {v : α}
    (h : entries.find? key = some v) : entries.insert key v = entries := by
  apply Ascending.ext_find?
  intro k
  rw [find?_insert]
  by_cases hk : k = key
  · rw [if_pos hk, hk, h]
  · rw [if_neg hk]

private theorem find?_foldl (key : String) (items : List (String × α)) (entries : Dict α) :
    (items.foldl (fun dict entry => dict.insert entry.1 entry.2) entries).find? key =
      (items.reverse.lookup key).or (entries.find? key) := by
  induction items generalizing entries with
  | nil => simp
  | cons item items ih =>
    obtain ⟨k, v⟩ := item
    rw [List.foldl_cons, ih, find?_insert, List.reverse_cons, List.lookup_append]
    by_cases hk : key = k
    · simp [hk]
    · cases items.reverse.lookup key <;> simp [List.lookup_cons, hk, beq_false_of_ne hk]

/-- Of entries with one key the last is found. -/
theorem find?_ofList (items : List (String × α)) (key : String) :
    (ofList items).find? key = items.reverse.lookup key := by
  simp [ofList, find?_foldl]

theorem find?_ofList_of_not_mem {items : List (String × α)} {key : String}
    (h : key ∉ items.map (·.1)) : (ofList items).find? key = none := by
  rw [find?_ofList, List.lookup_eq_none_iff]
  intro item hi
  simpa using fun he : key = item.1 => h (he ▸ List.mem_map.mpr ⟨item, by simpa using hi, rfl⟩)

theorem find?_ofList_of_mem {items : List (String × α)} (hn : (items.map (·.1)).Nodup)
    {key : String} {value : α} (h : (key, value) ∈ items) :
    (ofList items).find? key = some value := by
  rw [find?_ofList]
  obtain ⟨front, back, rfl⟩ := List.append_of_mem h
  rw [List.lookup_eq_some_iff]
  refine ⟨back.reverse, front.reverse, by simp, fun item hi => ?_⟩
  simp only [List.map_append, List.map_cons, List.nodup_append, List.nodup_cons] at hn
  simpa using fun he : key = item.1 => hn.2.1.1 (he ▸ List.mem_map.mpr ⟨item, by simpa using hi, rfl⟩)

theorem find?_ofList_iff {items : List (String × α)} (hn : (items.map (·.1)).Nodup) {key : String}
    {value : α} : (ofList items).find? key = some value ↔ (key, value) ∈ items := by
  refine ⟨fun h => ?_, find?_ofList_of_mem hn⟩
  by_cases hm : key ∈ items.map (·.1)
  · obtain ⟨⟨_, v⟩, hv, rfl⟩ := List.mem_map.mp hm
    obtain rfl : v = value := Option.some.inj ((find?_ofList_of_mem hn hv).symm.trans h)
    exact hv
  · simp [find?_ofList_of_not_mem hm] at h

/-- Listing the entries and collecting them again, changed one by one. -/
theorem ofList_map_toList {β : Type} (entries : Dict α) (f : α → β) :
    ofList (entries.toList.map fun entry => (entry.1, f entry.2)) = entries.mapValues f := by
  have hk : (entries.toList.map fun entry => (entry.1, f entry.2)).map (·.1) = entries.keys := by
    simp [Ascending.keys]
  apply Ascending.ext_find?
  intro key
  rw [Ascending.find?_mapValues]
  cases hf : entries.find? key with
  | none =>
    refine find?_ofList_of_not_mem fun hm => ?_
    obtain ⟨v, hv⟩ := Ascending.mem_keys_iff.mp (hk ▸ hm)
    simp [hf] at hv
  | some v =>
    refine find?_ofList_of_mem (hk ▸ Ascending.keys_nodup entries) ?_
    exact List.mem_map.mpr ⟨(key, v), Ascending.mem_toList_iff.mpr hf, rfl⟩

end Dict

theorem TextSet.mem_keys_ofList {texts : List String} {text : String} :
    text ∈ (TextSet.ofList texts).keys ↔ text ∈ texts := by
  rw [Ascending.mem_keys_iff, TextSet.ofList]
  constructor
  · rintro ⟨value, h⟩
    by_contra hm
    rw [Dict.find?_ofList_of_not_mem (by simpa using hm)] at h
    contradiction
  · intro hm
    by_contra hnone
    simp only [not_exists, ← Option.eq_none_iff_forall_ne_some, Dict.find?_ofList,
      List.lookup_eq_none_iff] at hnone
    simpa using hnone (text, ()) (List.mem_reverse.mpr (List.mem_map.mpr ⟨text, hm, rfl⟩))

theorem TextSet.ofList_keys (texts : TextSet) : TextSet.ofList texts.keys = texts := by
  have h := Dict.ofList_map_toList texts fun _ => ()
  simp only [TextSet.ofList, Ascending.keys, List.map_map]
  refine h.trans (Ascending.ext_find? fun key => ?_)
  rw [Ascending.find?_mapValues]
  cases texts.find? key <;> rfl

end SceneGraph
