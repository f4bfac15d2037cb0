import SceneGraph.Readers
import SceneGraph.Proofs.DictionaryLaws

/-!
# Reading from values: what readers make of JSON that has no faults of text

Readers are mostly used on values, which have no faults of text. Here are the laws of `Except` that
take readers apart, and what each reader makes of a value. In particular a value is read back as it
is (`Source.toJson_ofJson`).
-/
namespace SceneGraph

section Steps
variable {ε δ α β : Type}

theorem bind_ok_iff {x : Except ε α} {f : α → Except ε β} {b : β} :
    x >>= f = .ok b ↔ ∃ a, x = .ok a ∧ f a = .ok b := by
  cases x <;> simp [bind, Except.bind]

theorem then_ok_iff {x : Except ε Unit} {f : Unit → Except ε β} {b : β} :
    x >>= f = .ok b ↔ x = .ok () ∧ f () = .ok b := by
  cases x <;> simp [bind, Except.bind]

theorem map_ok_iff {x : Except ε α} {f : α → β} {b : β} :
    x.map f = .ok b ↔ ∃ a, x = .ok a ∧ f a = b := by
  cases x <;> simp [Except.map]

theorem map_error_iff {x : Except ε α} {f : α → β} {e : ε} :
    x.map f = .error e ↔ x = .error e := by
  cases x <;> simp [Except.map]

theorem mapError_ok_iff {x : Except ε α} {f : ε → δ} {a : α} :
    x.mapError f = .ok a ↔ x = .ok a := by
  cases x <;> simp [Except.mapError]

/-- What every single step yields holds of all that they yield one after the other. -/
theorem forall_of_mapM {f : α → Except ε β} {p : β → Prop} (hf : ∀ a b, f a = .ok b → p b)
    {items : List α} {results : List β} (h : items.mapM f = .ok results) : ∀ b ∈ results, p b := by
  induction items generalizing results with
  | nil =>
    cases h
    exact nofun
  | cons a items ih =>
    rw [List.mapM_cons] at h
    obtain ⟨b, hb, h⟩ := bind_ok_iff.mp h
    obtain ⟨rest, hr, h⟩ := bind_ok_iff.mp h
    cases h
    exact List.forall_mem_cons.mpr ⟨hf a b hb, ih hr⟩

theorem bind_ne_error {x : Except ε α} {f : α → Except ε β} {error : ε} (hx : x ≠ .error error)
    (hf : ∀ a, f a ≠ .error error) : x >>= f ≠ .error error := by
  cases x with
  | error e =>
    intro he
    cases he
    exact hx rfl
  | ok a => exact hf a

/-- Steps that do as others do wherever those do not end in a certain error do so one after the
other, too. -/
theorem mapM_congr_of_ne {f g : α → Except ε β} {error : ε}
    (hfg : ∀ a, f a ≠ .error error → g a = f a) {items : List α}
    (h : items.mapM f ≠ .error error) : items.mapM g = items.mapM f := by
  induction items with
  | nil => rfl
  | cons a items ih =>
    rw [List.mapM_cons] at h
    have ha : f a ≠ .error error := fun he => h (by rw [he]; rfl)
    rw [List.mapM_cons, List.mapM_cons, hfg a ha]
    cases hfa : f a with
    | error e => rfl
    | ok b =>
      have hitems : items.mapM f ≠ .error error := fun he => h (by rw [hfa, he]; rfl)
      rw [ih hitems]

@[simp] theorem pure_ok_iff {a b : α} : (pure a : Except ε α) = .ok b ↔ a = b := by
  simp [pure, Except.pure]

@[simp] theorem bind_ok (a : α) (f : α → Except ε β) : (Except.ok a >>= f) = f a := rfl

end Steps

namespace Source

theorem lookup_ofMembers {low : Option String} (members : Ascending Json low) (key : String) :
    (ofMembers members).lookup key = (members.find? key).map ofJson := by
  induction members with
  | nil => rfl
  | cons k above v rest ih =>
    by_cases hk : key = k
    · simp [ofMembers, hk]
    · simp [ofMembers, List.lookup_cons, hk, ih, beq_false_of_ne hk]

theorem ofMembers_eq_map {low : Option String} (members : Ascending Json low) :
    ofMembers members = members.toList.map fun entry => (entry.1, ofJson entry.2) := by
  induction members with
  | nil => rfl
  | cons k above v rest ih => simp [ofMembers, Ascending.toList, ih]

end Source

namespace Reader
variable {α : Type} {read : Reader α}

/-- Entries that are read stand in front of those that were there. -/
theorem entries_ofMembers {low : Option String} {members : Ascending Json low} (before : Dict α)
    (h : ∀ key j, members.find? key = some j → ∃ a, read.fromJson j = .ok a) :
    ∃ dict, entries read .value before (Source.ofMembers members) = .ok dict ∧
      (∀ key, members.find? key = none → dict.find? key = before.find? key) ∧
      ∀ key j, members.find? key = some j →
        ∃ a, read.fromJson j = .ok a ∧ dict.find? key = some a := by
  induction members generalizing before with
  | nil => exact ⟨before, rfl, fun _ _ => rfl, nofun⟩
  | cons k above v rest ih =>
    have hr : rest.find? k = none :=
      Ascending.find?_eq_none_of_not_above rest (String.lt_irrefl k)
    obtain ⟨a, ha⟩ := h k v (by simp)
    have hrest : ∀ key j, rest.find? key = some j → ∃ a, read.fromJson j = .ok a := by
      intro key j hj
      by_cases hk : key = k
      · simp [hk, hr] at hj
      · exact h key j (by simp [hk, hj])
    obtain ⟨dict, hd, hnone, hsome⟩ := ih (before.insert k a) hrest
    refine ⟨dict, ?_, ?_, ?_⟩
    · have ha' : read .value (Source.ofJson v) = .ok a := ha
      simp only [Source.ofMembers, entries, ha', bind_ok, hd]
    · intro key hkey
      by_cases hk : key = k
      · simp [hk] at hkey
      · rw [Ascending.find?_cons, if_neg hk] at hkey
        simp [hnone key hkey, hk]
    · intro key j hkey
      by_cases hk : key = k
      · subst hk
        obtain rfl : v = j := by simpa using hkey
        exact ⟨a, ha, by simp [hnone key hr]⟩
      · rw [Ascending.find?_cons, if_neg hk] at hkey
        exact hsome key j hkey

private theorem read_of_entries {low : Option String} {members : Ascending Json low}
    {before dict : Dict α}
    (h : entries read .value before (Source.ofMembers members) = .ok dict) :
    ∀ key j, members.find? key = some j → ∃ a, read.fromJson j = .ok a := by
  induction members generalizing before with
  | nil => exact nofun
  | cons k above v rest ih =>
    simp only [Source.ofMembers, entries, bind_ok_iff] at h
    obtain ⟨a, ha, hd⟩ := h
    intro key j hj
    by_cases hk : key = k
    · obtain rfl : v = j := by simpa [hk] using hj
      exact ⟨a, ha⟩
    · exact ih hd key j (by simpa [hk] using hj)

/-- A dictionary is read entry by entry. -/
theorem dict_obj_iff {members : Bag} {entries : Dict α} :
    (dict read).fromJson (.obj members) = .ok entries ↔
      ∀ key, (members.find? key = none ∧ entries.find? key = none) ∨
        ∃ j a, members.find? key = some j ∧ read.fromJson j = .ok a ∧
          entries.find? key = some a := by
  have hform : (dict read).fromJson (.obj members) =
      (Reader.entries read .value .nil (Source.ofMembers members) >>= fun d => .ok d) := by
    simp [fromJson, Source.ofJson, dict, Source.closing, pure, Except.pure]
  rw [hform, bind_ok_iff]
  constructor
  · rintro ⟨found, hf, he⟩
    obtain ⟨dict, hd, hnone, hsome⟩ := entries_ofMembers .nil (read_of_entries hf)
    obtain rfl : dict = entries := by
      rw [hf] at hd
      exact (Except.ok.inj hd).symm.trans (Except.ok.inj he)
    intro key
    cases hk : members.find? key with
    | none => exact .inl ⟨rfl, by simp [hnone key hk]⟩
    | some j =>
      obtain ⟨a, ha, hfind⟩ := hsome key j hk
      exact .inr ⟨j, a, rfl, ha, hfind⟩
  · intro h
    have hread : ∀ key j, members.find? key = some j → ∃ a, read.fromJson j = .ok a := by
      intro key j hj
      rcases h key with ⟨hn, -⟩ | ⟨j', a, hs, ha, -⟩
      · simp [hn] at hj
      · obtain rfl : j' = j := by simpa [hs] using hj
        exact ⟨a, ha⟩
    obtain ⟨dict, hd, hnone, hsome⟩ := entries_ofMembers .nil hread
    refine ⟨dict, hd, congrArg Except.ok (Ascending.ext_find? fun key => ?_)⟩
    rcases h key with ⟨hn, he⟩ | ⟨j, a, hs, ha, he⟩
    · rw [hnone key hn, he]
      rfl
    · obtain ⟨a', ha', hfind⟩ := hsome key j hs
      rw [hfind, he, Except.ok.inj (ha'.symm.trans ha)]

end Reader

namespace Source

mutual
/-- A value is read back as it is. -/
theorem toJson_ofJson : (j : Json) → (ofJson j).toJson = .ok j
  | .null => rfl
  | .bool _ => rfl
  | .num _ => rfl
  | .str _ => rfl
  | .arr items => by
    simp [ofJson, toJson, toItems_ofItems items, closing, pure, Except.pure]
  | .obj members => by
    obtain ⟨bag, hb, hfind⟩ := toMembers_ofMembers members .nil
    have he : bag = members := Ascending.ext_find? fun key => by simp [hfind]
    simp [ofJson, toJson, hb, he, closing, pure, Except.pure]

theorem toItems_ofItems : (items : List Json) → toItems (ofItems items) = .ok items
  | [] => rfl
  | x :: xs => by
    simp [ofItems, toItems, toJson_ofJson x, toItems_ofItems xs, pure, Except.pure]

theorem toMembers_ofMembers : {low : Option String} → (members : Ascending Json low) →
    (before : Bag) → ∃ bag, toMembers before (ofMembers members) = .ok bag ∧
      ∀ key, bag.find? key = (members.find? key).or (before.find? key)
  | _, .nil, before => ⟨before, rfl, fun _ => rfl⟩
  | _, .cons k _ v rest, before => by
    obtain ⟨bag, hb, hfind⟩ := toMembers_ofMembers rest (Dict.insert before k v)
    refine ⟨bag, by simpa [ofMembers, toMembers, toJson_ofJson v] using hb, fun key => ?_⟩
    have hr : rest.find? k = none :=
      Ascending.find?_eq_none_of_not_above rest (String.lt_irrefl k)
    by_cases hk : key = k
    · simp [hfind, hk, hr]
    · simp [hfind, hk]
end

end Source

namespace Reader

@[simp] theorem json_fromJson (j : Json) : json.fromJson j = .ok j := Source.toJson_ofJson j

@[simp] theorem string_fromJson (s : String) : string.fromJson (.str s) = .ok s := rfl
@[simp] theorem bool_fromJson (b : Bool) : bool.fromJson (.bool b) = .ok b := rfl

theorem real_fromJson {x : Binary64} (h : x.isFinite = true) :
    real.fromJson (Json.real x) = .ok x := by
  simp [Json.real_of_finite h, fromJson, Source.ofJson, real, Number.toBinary64, h]

/-- A number that is read back at all is read back as itself. -/
theorem real_of_real {x y : Binary64} (h : real.fromJson (Json.real x) = .ok y) : y = x := by
  cases hx : x.isFinite with
  | true => exact (Except.ok.inj ((real_fromJson hx).symm.trans h)).symm
  | false => simp [Json.real, hx, fromJson, Source.ofJson, real] at h

theorem bag_ok_iff {j : Json} {b : Bag} : Reader.bag.fromJson j = .ok b ↔ j = .obj b := by
  cases j with
  | obj members =>
    have hd : Reader.bag.fromJson (.obj members) = .ok members := by
      refine dict_obj_iff.mpr fun key => ?_
      cases hk : members.find? key with
      | none => exact .inl ⟨rfl, rfl⟩
      | some j => exact .inr ⟨j, j, rfl, json_fromJson j, rfl⟩
    simp [hd]
  | _ => simp [fromJson, Source.ofJson, bag, dict, Source.otherKind]

theorem nullable_ok_iff {α : Type} {read : Reader α} {j : Json} {a : Option α} :
    (nullable read).fromJson j = .ok a ↔
      (j = .null ∧ a = none) ∨ j ≠ .null ∧ ∃ b, read.fromJson j = .ok b ∧ a = some b := by
  cases j <;> simp [fromJson, Source.ofJson, nullable, map_ok_iff, @eq_comm _ a]

end Reader
end SceneGraph
