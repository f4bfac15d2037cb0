import SceneGraph.PropertyPaths
import SceneGraph.Proofs.DictionaryLaws

/-!
# Open positions of a bag

A position is open when all steps before its last one lead into objects. Every write comes down to
one at an open position, which is what makes writes undoable.
-/
namespace SceneGraph

namespace Bag

/-- All steps of the path but the last one are there and lead into objects. -/
def Open (bag : Bag) : Path → Prop
  | [] => False
  | [_] => True
  | key :: next :: path => ∃ inner, bag.find? key = some (.obj inner) ∧ Open inner (next :: path)

/-- Puts a value, or nothing, at an open position. -/
def assign (bag : Bag) : Path → Option Json → Bag
  | [], _ => bag
  | [key], some value => Dict.insert bag key value
  | [key], none => bag.erase key
  | key :: next :: path, value =>
    match bag.find? key with
    | some (.obj inner) => Dict.insert bag key (.obj (assign inner (next :: path) value))
    | _ => bag

variable {bag : Bag} {path : Path}

theorem assign_step {key next : String} {path : Path} {inner : Bag}
    (h : bag.find? key = some (.obj inner)) (value : Option Json) :
    bag.assign (key :: next :: path) value =
      Dict.insert bag key (.obj (assign inner (next :: path) value)) := by
  simp [assign, h]

theorem find?_assign_self (bag : Bag) (key : String) (value : Option Json) :
    (bag.assign [key] value).find? key = value := by
  cases value <;> simp [assign, Ascending.find?_erase]

theorem find?_assign_of_ne (bag : Bag) {key k : String} (hk : k ≠ key) (path : Path)
    (value : Option Json) : (bag.assign (key :: path) value).find? k = bag.find? k := by
  cases path with
  | nil => cases value <;> simp [assign, Ascending.find?_erase, hk]
  | cons next path =>
    simp only [assign]
    split
    · simp [hk]
    · rfl

theorem Open.assign (h : bag.Open path) (value : Option Json) :
    (bag.assign path value).Open path := by
  fun_induction Open bag path with
  | case1 => contradiction
  | case2 => trivial
  | case3 bag key next path ih =>
    obtain ⟨inner, hf, ho⟩ := h
    rw [assign_step hf]
    exact ⟨_, by simp, ih inner ho⟩

theorem get?_assign (h : bag.Open path) (value : Option Json) :
    get? (bag.assign path value) path = value := by
  fun_induction Open bag path with
  | case1 => contradiction
  | case2 bag key => exact find?_assign_self bag key value
  | case3 bag key next path ih =>
    obtain ⟨inner, hf, ho⟩ := h
    rw [assign_step hf]
    simpa [get?] using ih inner ho

theorem assign_assign (h : bag.Open path) (v w : Option Json) :
    (bag.assign path v).assign path w = bag.assign path w := by
  fun_induction Open bag path with
  | case1 => contradiction
  | case2 bag key => cases v <;> cases w <;> simp [Bag.assign, Ascending.erase_of_find?_none,
      Ascending.find?_erase]
  | case3 bag key next path ih =>
    obtain ⟨inner, hf, ho⟩ := h
    rw [assign_step hf, assign_step (Dict.find?_insert .. |>.trans (if_pos rfl)), assign_step hf,
      ih inner ho, Dict.insert_insert]

theorem assign_get? (h : bag.Open path) : bag.assign path (get? bag path) = bag := by
  fun_induction Open bag path with
  | case1 => contradiction
  | case2 bag key =>
    cases hf : bag.find? key with
    | none => simpa [get?, Bag.assign, hf] using Ascending.erase_of_find?_none hf
    | some v => simpa [get?, Bag.assign, hf] using Dict.insert_of_find? hf
  | case3 bag key next path ih =>
    obtain ⟨inner, hf, ho⟩ := h
    have hg : get? bag (key :: next :: path) = get? inner (next :: path) := by simp [get?, hf]
    rw [hg, assign_step hf, ih inner ho, Dict.insert_of_find? hf]

end Bag

namespace Bag
variable {bag : Bag} {path : Path}

private theorem putBelow_of_open {key : String} {rest : Path} (h : bag.Open (key :: rest))
    (value : Option Json) : putBelow bag key value rest = .ok (bag.assign (key :: rest) value) := by
  induction rest generalizing bag key with
  | nil => cases value <;> rfl
  | cons next rest ih =>
    obtain ⟨inner, hf, ho⟩ := h
    simp [putBelow, hf, ih ho, assign_step hf, bind, Except.bind, pure, Except.pure]

/-- At an open position a write never fails. -/
theorem put_of_open (h : bag.Open path) (value : Option Json) :
    bag.put path value = .ok (bag.assign path value) := by
  cases path with
  | nil => contradiction
  | cons key rest => simp [put, putBelow_of_open h, Except.mapError]

private theorem priorBelow_of_open {key : String} {rest : Path} (h : bag.Open (key :: rest)) :
    priorBelow bag key rest = .ok ⟨key :: rest, get? bag (key :: rest)⟩ := by
  induction rest generalizing bag key with
  | nil => rfl
  | cons next rest ih =>
    obtain ⟨inner, hf, ho⟩ := h
    simp [priorBelow, hf, ih ho, get?, Except.map]

theorem prior_of_open (h : bag.Open path) : bag.prior path = .ok ⟨path, get? bag path⟩ := by
  cases path with
  | nil => contradiction
  | cons key rest => simp [prior, priorBelow_of_open h, Except.mapError]

/-- A path that leads to a value is open. -/
theorem open_of_get? {value : Json} (h : get? bag path = some value) : bag.Open path := by
  fun_induction get? bag path with
  | case1 => contradiction
  | case2 => trivial
  | case3 bag key next path inner hf ih => exact ⟨inner, hf, ih h⟩
  | case4 => contradiction

private theorem open_of_priorBelow {key : String} {rest : Path} {found : Prior}
    (h : priorBelow bag key rest = .ok found) :
    bag.Open found.path ∧ found.value = get? bag found.path ∧ found.path <+: key :: rest := by
  induction rest generalizing bag key found with
  | nil =>
    cases h
    exact ⟨trivial, rfl, List.prefix_rfl⟩
  | cons next rest ih =>
    simp only [priorBelow] at h
    split at h
    · rename_i hf
      cases h
      exact ⟨trivial, hf.symm, by simp⟩
    · rename_i inner hf
      cases hp : priorBelow inner next rest with
      | error e => simp [hp, Except.map] at h
      | ok below =>
        simp only [hp, Except.map, Except.ok.injEq] at h
        subst h
        obtain ⟨ho, hv, hpre⟩ := ih hp
        obtain ⟨steps, value⟩ := below
        cases steps with
        | nil => contradiction
        | cons step steps =>
          exact ⟨⟨inner, hf, ho⟩, by simpa [get?, hf] using hv, by simpa using hpre⟩
    · contradiction

/-- What a write replaces stands at an open position on the way. -/
theorem open_of_prior {found : Prior} (h : bag.prior path = .ok found) :
    bag.Open found.path ∧ found.value = get? bag found.path ∧ found.path <+: path := by
  cases path with
  | nil => contradiction
  | cons key rest =>
    cases hp : priorBelow bag key rest with
    | error e => simp [prior, hp, Except.mapError] at h
    | ok below =>
      simp only [prior, hp, Except.mapError, Except.ok.injEq] at h
      exact h ▸ open_of_priorBelow hp

private theorem path_of_priorBelow {key : String} {rest : Path} {found : Prior}
    (h : priorBelow bag key rest = .ok found) : found.path = key :: rest ∨ found.value = none := by
  induction rest generalizing bag key found with
  | nil =>
    cases h
    exact .inl rfl
  | cons next rest ih =>
    simp only [priorBelow] at h
    split at h
    · cases h
      exact .inr rfl
    · rename_i inner hf
      cases hp : priorBelow inner next rest with
      | error e => simp [hp, Except.map] at h
      | ok below =>
        simp only [hp, Except.map, Except.ok.injEq] at h
        subst h
        exact (ih hp).imp (congrArg (key :: ·)) id
    · contradiction

/-- Only where something is missing on the way does a write replace nothing at all. -/
theorem path_of_prior {found : Prior} (h : bag.prior path = .ok found) :
    found.path = path ∨ found.value = none := by
  cases path with
  | nil => contradiction
  | cons key rest =>
    cases hp : priorBelow bag key rest with
    | error e => simp [prior, hp, Except.mapError] at h
    | ok below =>
      simp only [prior, hp, Except.mapError, Except.ok.injEq] at h
      exact h ▸ path_of_priorBelow hp

private theorem putBelow_nil (key : String) (value : Option Json) (rest : Path) :
    ∃ bag, putBelow .nil key value rest = .ok bag := by
  induction rest generalizing key with
  | nil => cases value <;> exact ⟨_, rfl⟩
  | cons next rest ih =>
    obtain ⟨inner, hi⟩ := ih next
    cases value <;> simp [putBelow, hi, bind, Except.bind, pure, Except.pure]

private theorem putBelow_of_prior {key : String} {rest : Path} {found : Prior}
    (h : priorBelow bag key rest = .ok found) (value : Option Json) :
    ∃ x, putBelow bag key value rest = .ok (bag.assign found.path x) := by
  induction rest generalizing bag key found with
  | nil =>
    cases h
    exact ⟨value, @putBelow_of_open bag key [] trivial value⟩
  | cons next rest ih =>
    simp only [priorBelow] at h
    split at h
    · rename_i hf
      cases h
      obtain ⟨inner, hi⟩ := putBelow_nil next value rest
      cases value with
      | none => exact ⟨none, by simp [putBelow, hf, Bag.assign, Ascending.erase_of_find?_none]⟩
      | some v =>
        exact ⟨some (.obj inner), by
          simp [putBelow, hf, hi, Bag.assign, bind, Except.bind, pure, Except.pure]⟩
    · rename_i inner hf
      cases hp : priorBelow inner next rest with
      | error e => simp [hp, Except.map] at h
      | ok below =>
        simp only [hp, Except.map, Except.ok.injEq] at h
        subst h
        obtain ⟨x, hx⟩ := ih hp
        obtain ⟨steps, w⟩ := below
        cases steps with
        | nil => exact absurd (open_of_priorBelow hp).1 id
        | cons step steps =>
          exact ⟨x, by simp [putBelow, hf, hx, assign_step hf, bind, Except.bind, pure,
            Except.pure]⟩
    · contradiction

/-- Where the prior state can be told, a write does nothing but assign at its position. -/
theorem put_of_prior {found : Prior} (h : bag.prior path = .ok found) (value : Option Json) :
    ∃ x, bag.put path value = .ok (bag.assign found.path x) := by
  cases path with
  | nil => contradiction
  | cons key rest =>
    cases hp : priorBelow bag key rest with
    | error e => simp [prior, hp, Except.mapError] at h
    | ok below =>
      simp only [prior, hp, Except.mapError, Except.ok.injEq] at h
      obtain ⟨x, hx⟩ := putBelow_of_prior hp value
      exact ⟨x, by simp [put, hx, Except.mapError, h]⟩

end Bag

namespace Path

/-- A path that a dotted text can spell. -/
def Spelled (path : Path) : Prop := path ≠ [] ∧ ∀ segment ∈ path, segment ≠ "" ∧ '.' ∉ segment.toList

theorem Spelled.front {path front : Path} (h : Spelled path) (hp : front <+: path)
    (hn : front ≠ []) : Spelled front :=
  ⟨hn, fun segment hs => h.2 segment (hp.subset hs)⟩

theorem segments_ne_nil (mark : Char) (cs : List Char) : segments mark cs ≠ [] := by
  induction cs with
  | nil => simp [segments]
  | cons c cs ih =>
    simp only [segments]
    split
    · simp
    · split <;> simp

private theorem segments_unmarked {mark : Char} {cs : List Char} (h : mark ∉ cs) :
    segments mark cs = [cs] := by
  induction cs with
  | nil => rfl
  | cons c cs ih =>
    obtain ⟨hc, hcs⟩ := not_or.mp (mt List.mem_cons.mpr h)
    simp [segments, Ne.symm hc, ih hcs]

private theorem segments_append {mark : Char} {cs : List Char} (h : mark ∉ cs) (rest : List Char) :
    segments mark (cs ++ mark :: rest) = cs :: segments mark rest := by
  induction cs with
  | nil => simp [segments]
  | cons c cs ih =>
    obtain ⟨hc, hcs⟩ := not_or.mp (mt List.mem_cons.mpr h)
    simp [segments, Ne.symm hc, ih hcs]

private theorem not_mem_segment {mark : Char} {cs segment : List Char}
    (h : segment ∈ segments mark cs) : mark ∉ segment := by
  induction cs generalizing segment with
  | nil => simp_all [segments]
  | cons c cs ih =>
    simp only [segments] at h
    split at h
    · rcases List.mem_cons.mp h with rfl | h
      · simp
      · exact ih h
    · rename_i hc
      split at h
      · rename_i hs
        exact absurd hs (segments_ne_nil mark cs)
      · rename_i first more hs
        rcases List.mem_cons.mp h with rfl | h
        · exact mt List.mem_cons.mp (not_or.mpr ⟨Ne.symm hc, ih (by simp [hs])⟩)
        · exact ih (by simp [hs, h])

private theorem segments_dotted {path : Path} (hn : path ≠ [])
    (h : ∀ segment ∈ path, '.' ∉ segment.toList) :
    (segments '.' path.dotted.toList).map String.ofList = path := by
  induction path with
  | nil => contradiction
  | cons first rest ih =>
    have hf := h first (by simp)
    cases rest with
    | nil => simp [dotted, String.intercalate_singleton, segments_unmarked hf]
    | cons next rest =>
      have hr := ih (by simp) fun segment hs => h segment (List.mem_cons_of_mem _ hs)
      have hd : (dotted (first :: next :: rest)).toList =
          first.toList ++ '.' :: (dotted (next :: rest)).toList := by
        simp [dotted, String.intercalate_cons_cons]
      rw [hd, segments_append hf, List.map_cons, hr, String.ofList_toList]

theorem Spelled.ofText_dotted {path : Path} (h : Spelled path) : ofText path.dotted = .ok path := by
  have hs := segments_dotted h.1 fun segment hm => (h.2 segment hm).2
  have hd : path.dotted.isEmpty = false := by
    rw [Bool.eq_false_iff]
    intro he
    rw [String.isEmpty_iff] at he
    simp only [he, segments, String.toList_empty, List.map_cons, List.map_nil] at hs
    exact (h.2 (String.ofList []) (by simp [← hs])).1 rfl
  have ha : path.any (·.isEmpty) = false := by
    rw [List.any_eq_false]
    intro segment hm
    simpa using (h.2 segment hm).1
  simp [ofText, hd, hs, ha]

/-- A path that starts with a given step goes on as the rest of the text says. -/
theorem ofText_below {key rest : String} {path : Path} (hk : '.' ∉ key.toList) (hr : rest ≠ "")
    (h : ofText (key ++ "." ++ rest) = .ok path) :
    ∃ below, ofText rest = .ok below ∧ path = key :: below := by
  have hsegments : (segments '.' (key ++ "." ++ rest).toList).map String.ofList =
      key :: (segments '.' rest.toList).map String.ofList := by
    simp [segments_append hk]
  have hrest : rest.isEmpty = false := by simpa [Bool.eq_false_iff, String.isEmpty_iff] using hr
  simp only [ofText, hsegments, List.any_cons, Bool.or_eq_true] at h
  split at h
  · contradiction
  split at h
  · contradiction
  · rename_i hany
    exact ⟨_, by simp [ofText, hrest, (not_or.mp hany).2], (Except.ok.inj h).symm⟩

theorem spelled_of_ofText {text : String} {path : Path} (h : ofText text = .ok path) :
    Spelled path := by
  simp only [ofText] at h
  split at h
  · contradiction
  · split at h
    · contradiction
    · rename_i ha
      cases h
      refine ⟨by simp [segments_ne_nil], fun segment hm => ?_⟩
      obtain ⟨cs, hc, rfl⟩ := List.mem_map.mp hm
      simp only [List.any_eq_true, not_exists, not_and] at ha
      exact ⟨by simpa using ha _ hm, by simpa using not_mem_segment hc⟩

end Path
end SceneGraph
