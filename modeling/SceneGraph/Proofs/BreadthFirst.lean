import SceneGraph.DocumentValidation
import SceneGraph.Proofs.Forests

/-!
# The breadth-first walk reaches what children lists lead to, and nothing else

The walk goes on generation by generation and leaves out what it has seen. It is bounded by the
number of entities, which is enough: with as many generations left as entities unseen it ends on a
set that children lists do not lead out of. So it lists the root, if there is one, and the entities
below it (`mem_breadthFirst_iff`).
-/
namespace SceneGraph
open Relation (ReflTransGen)

theorem mem_freshAmong {seen texts : List String} {text : String} :
    text ∈ freshAmong seen texts ↔ text ∈ texts ∧ text ∉ seen := by
  induction texts generalizing seen with
  | nil => simp [freshAmong]
  | cons first rest ih =>
    unfold freshAmong
    by_cases hs : first ∈ seen
    · rw [if_pos (by simpa using hs), ih, List.mem_cons]
      refine and_congr_left fun ht => (or_iff_right ?_).symm
      rintro rfl
      exact ht hs
    · rw [if_neg (by simpa using hs), List.mem_cons, ih, List.mem_cons, List.mem_cons]
      by_cases he : text = first <;> simp [he, hs]

theorem freshAmong_nodup (seen texts : List String) : (freshAmong seen texts).Nodup := by
  induction texts generalizing seen with
  | nil => exact List.nodup_nil
  | cons first rest ih =>
    unfold freshAmong
    split
    · exact ih seen
    · exact List.nodup_cons.mpr ⟨fun h => (mem_freshAmong.mp h).2 List.mem_cons_self, ih _⟩

namespace Document
variable {d : Document} {seen ids : List String} {n : Nat} {id : String}

theorem lists_iff {p c : String} : d.outline.Lists p c ↔ c ∈ d.childrenOf p := by
  cases h : d.entity? p <;> simp [Outline.Lists, outline, childrenOf, h]

theorem generations_nil (d : Document) (n : Nat) (seen : List String) :
    d.generations n seen [] = [] := by
  cases n <;> rfl

theorem generations_succ (d : Document) (n : Nat) (seen ids : List String) :
    d.generations (n + 1) seen ids = freshAmong seen ids ++
      d.generations n (freshAmong seen ids ++ seen)
        ((freshAmong seen ids).flatMap d.childrenOf) := by
  rw [generations]
  split
  · rename_i h
    simp [h, generations_nil]
  · rfl

/-- Whatever is reached stands below where the walk began. -/
theorem lists_of_mem_generations (h : id ∈ d.generations n seen ids) :
    ∃ start ∈ ids, ReflTransGen d.outline.Lists start id := by
  induction n generalizing seen ids with
  | zero => simp [generations] at h
  | succ n ih =>
    rw [generations_succ, List.mem_append] at h
    rcases h with h | h
    · exact ⟨id, (mem_freshAmong.mp h).1, .refl⟩
    · obtain ⟨start, hs, hr⟩ := ih h
      obtain ⟨p, hp, hc⟩ := List.mem_flatMap.mp hs
      exact ⟨p, (mem_freshAmong.mp hp).1, hr.head (lists_iff.mpr hc)⟩

/-- Entities among the ids are reached, and entities listed by what is reached are. -/
private structure Closed (d : Document) (ids reached : List String) : Prop where
  ids : ∀ id ∈ ids, d.contains id = true → id ∈ reached
  children : ∀ p ∈ reached, ∀ c ∈ d.childrenOf p, d.contains c = true → c ∈ reached

private theorem childrenOf_eq_nil (h : d.contains id = false) : d.childrenOf id = [] := by
  have hn : d.entity? id = none := not_contains_iff.mp h
  simp [childrenOf, hn]

private theorem closed_of_all_seen (hs : seen.Nodup)
    (hn : d.entities.size ≤ (seen.filter d.contains).length) : d.Closed ids seen := by
  have hall : ∀ id, d.contains id = true → id ∈ seen := by
    intro id hid
    by_contra hm
    have hnodup : (id :: seen.filter d.contains).Nodup :=
      List.nodup_cons.mpr ⟨fun h => hm (List.mem_filter.mp h).1, hs.filter _⟩
    have hlen := Ascending.length_le_size hnodup fun key hk => by
      rcases List.mem_cons.mp hk with rfl | hk
      · exact contains_iff.mp hid
      · exact contains_iff.mp (List.mem_filter.mp hk).2
    simp only [List.length_cons] at hlen
    omega
  exact ⟨fun id _ hid => hall id hid, fun _ _ c _ hc => hall c hc⟩

/-- With as many generations left as there are entities unseen, the walk ends on a closed set. -/
private theorem closed_generations (hs : seen.Nodup)
    (hc : ∀ p ∈ seen, ∀ c ∈ d.childrenOf p, d.contains c = true → c ∈ seen ∨ c ∈ ids)
    (hn : d.entities.size ≤ n + (seen.filter d.contains).length) :
    d.Closed ids (seen ++ d.generations n seen ids) := by
  induction n generalizing seen ids with
  | zero => simpa [generations] using closed_of_all_seen hs (by simpa using hn)
  | succ n ih =>
    rw [generations_succ]
    generalize hf : freshAmong seen ids = fresh
    have hids : ∀ id ∈ ids, id ∈ seen ∨ id ∈ fresh := by
      intro id hid
      rw [← hf, mem_freshAmong]
      exact or_iff_not_imp_left.mpr fun hn => ⟨hid, hn⟩
    by_cases hnew : ∃ id ∈ fresh, d.contains id = true
    · have hnodup : (fresh ++ seen).Nodup := by
        refine List.nodup_append.mpr ⟨hf ▸ freshAmong_nodup seen ids, hs, ?_⟩
        rintro id hid _ hm rfl
        exact (mem_freshAmong.mp (hf ▸ hid)).2 hm
      have hlen : 0 < (fresh.filter d.contains).length := by
        obtain ⟨id, hid, hex⟩ := hnew
        exact List.length_pos_of_mem (List.mem_filter.mpr ⟨hid, hex⟩)
      have hclosed := @ih (fresh ++ seen) (fresh.flatMap d.childrenOf) hnodup
        (fun p hp c hpc hex => by
          rcases List.mem_append.mp hp with hp | hp
          · exact .inr (List.mem_flatMap.mpr ⟨p, hp, hpc⟩)
          · exact .inl (List.mem_append.mpr ((hc p hp c hpc hex).elim .inr fun hi =>
              (hids c hi).symm)))
        (by simp only [List.filter_append, List.length_append]; omega)
      have hmem : ∀ id, id ∈ seen ++ (fresh ++ d.generations n (fresh ++ seen)
          (fresh.flatMap d.childrenOf)) ↔ id ∈ fresh ++ seen ++ d.generations n (fresh ++ seen)
            (fresh.flatMap d.childrenOf) := by
        intro id
        simp only [List.mem_append]
        tauto
      refine ⟨fun id hid _ => ?_, fun p hp c hpc hex => ?_⟩
      · rcases hids id hid with h | h <;> simp [h]
      · exact (hmem c).mpr (hclosed.children p ((hmem p).mp hp) c hpc hex)
    · -- nothing new exists, so nothing new is listed either
      have hnone : ∀ id ∈ fresh, d.childrenOf id = [] := fun id hid =>
        childrenOf_eq_nil (Bool.eq_false_iff.mpr fun h => hnew ⟨id, hid, h⟩)
      have hseen : ∀ id ∈ ids, d.contains id = true → id ∈ seen := fun id hid hex =>
        (hids id hid).resolve_right fun h => hnew ⟨id, h, hex⟩
      have hlast : fresh.flatMap d.childrenOf = [] := List.flatMap_eq_nil_iff.mpr hnone
      rw [hlast, generations_nil, List.append_nil]
      refine ⟨fun id hid hex => by simp [hseen id hid hex], fun p hp c hpc hex => ?_⟩
      rcases List.mem_append.mp hp with hp | hp
      · exact List.mem_append_left _ ((hc p hp c hpc hex).elim (fun h => h) (hseen c · hex))
      · simp [hnone p hp] at hpc

/-- The walk reaches the entities that stand below the root, and the root itself when it exists. -/
theorem mem_breadthFirst_iff (hid : d.contains id = true) :
    id ∈ d.breadthFirst ↔ ReflTransGen d.outline.Lists d.rootEntityId id := by
  constructor
  · intro h
    obtain ⟨start, hs, hr⟩ := lists_of_mem_generations h
    rwa [List.mem_singleton.mp hs] at hr
  · intro h
    have hclosed : d.Closed [d.rootEntityId] d.breadthFirst := by
      have := @closed_generations d [] [d.rootEntityId] d.entities.size List.nodup_nil
        (by simp) (by simp)
      simpa [breadthFirst] using this
    induction h with
    | refl => exact hclosed.ids _ (by simp) hid
    | tail _ hl ih =>
      have hc := lists_iff.mp hl
      refine hclosed.children _ (ih ?_) _ hc hid
      by_contra hn
      simp [childrenOf_eq_nil (Bool.eq_false_iff.mpr hn)] at hc

end Document
end SceneGraph
