import SceneGraph.Proofs.FiniteReading
import SceneGraph.Proofs.Moves

/-!
# Document reading: what holds of every document that was read

The numbers of a document that was read have a JSON form, and no setting in it is hidden by another.
So a document that was read and is a forest under ids that edits could have given (`WellRead`) is
well formed.
-/
namespace SceneGraph

namespace Reader
variable {α : Type} {read : Reader α} {p : α → Prop}

private theorem entries_yield (h : read.Yields p) {origin : Origin}
    {members : List (String × Source)} {before dict : Dict α}
    (hb : ∀ key a, before.find? key = some a → p a)
    (hd : entries read origin before members = .ok dict) :
    ∀ key a, dict.find? key = some a → p a := by
  induction members generalizing before with
  | nil =>
    obtain rfl := Except.ok.inj hd
    exact hb
  | cons member members ih =>
    obtain ⟨a, ha, hd⟩ := bind_ok_iff.mp hd
    refine ih (fun key b hf => ?_) hd
    rw [Dict.find?_insert] at hf
    split at hf
    · exact Option.some.inj hf ▸ h _ _ a ha
    · exact hb key b hf

theorem Yields.dict (h : read.Yields p) :
    (Reader.dict read).Yields fun dict => ∀ key a, dict.find? key = some a → p a := by
  intro origin x dict hd
  cases x with
  | obj members closed =>
    obtain ⟨found, hf, hd⟩ := bind_ok_iff.mp hd
    obtain ⟨-, hd⟩ := then_ok_iff.mp hd
    cases hd
    exact entries_yield h (fun key a hn => by simp at hn) hf
  | _ => simp [Reader.dict] at hd

end Reader

open Shape Reader

namespace GameSettings

private theorem find?_toMembers {key : String} {members : List (String × Source)}
    {before bag : Bag} (hm : ∀ member ∈ members, member.1 ≠ key) (hb : before.find? key = none)
    (h : Source.toMembers before members = .ok bag) : bag.find? key = none := by
  induction members generalizing before with
  | nil =>
    obtain rfl := Except.ok.inj h
    exact hb
  | cons member members ih =>
    obtain ⟨hne, hm⟩ := List.forall_mem_cons.mp hm
    obtain ⟨value, -, h⟩ := bind_ok_iff.mp h
    exact ih hm (by simp [hne.symm, hb]) h

/-- No setting that is read is hidden by another. -/
theorem reader_yields : reader.Yields Separate := by
  intro origin x g h
  cases x with
  | obj members closed =>
    obtain ⟨⟨cameraMode, spawnPointId⟩, -, h⟩ := bind_ok_iff.mp h
    obtain ⟨extra, he, h⟩ := bind_ok_iff.mp h
    cases h
    have hne : ∀ key, (known.checks.lookup key).isSome = true →
        ∀ member ∈ known.others members, member.1 ≠ key := by
      rintro key hk member hm rfl
      have hnone : (known.checks.lookup member.1).isNone = true := (List.mem_filter.mp hm).2
      rw [Option.isNone_iff_eq_none.mp hnone] at hk
      contradiction
    exact ⟨find?_toMembers (hne cameraKey rfl) rfl he, find?_toMembers (hne spawnKey rfl) rfl he⟩
  | _ => simp [reader] at h

end GameSettings

theorem Entity.reader_yields : Entity.reader.Yields (·.transform.isFinite = true) := by
  refine Yields.record (.seq_any (.seq_any (.seq_any (.seq ?_
    (.defaulted Transform.reader_yields (by decide)))))) _
  exact .seq_any (.seq_any (.seq_any (.seq_any (.seq_any (.map_any
    fun _ _ _ _ _ _ _ ht _ _ _ => ht)))))

namespace Document

theorem reader_yields : reader.Yields fun d => d.Readable ∧
    ∀ id e, d.entity? id = some e → e.transform.isFinite = true := by
  refine Yields.record (.seq_any (.seq (.seq (.seq_any (.seq_any (.seq ?_
    (.required Entity.reader_yields.dict)))) (.defaulted (Environment.reader_yields _) (by decide)))
    (.defaulted GameSettings.reader_yields.nullable (by simp)))) _
  exact .seq_any (.seq_any (.seq_any (.map_any
    fun _ _ _ _ _ he _ _ _ henv _ hg _ => ⟨⟨henv, hg⟩, he⟩)))

/-- A document that was read and is a forest under ids that edits could have given. -/
structure WellRead (d : Document) : Prop extends Forest d where
  read : ∃ origin x, reader origin x = .ok d
  names : ∀ ⦃id e⦄, d.entity? id = some e → id ≠ d.rootEntityId → id ≠ "" ∧ id ≠ documentTarget
  assetNames : ∀ ⦃id a⦄, d.assets.find? id = some a → id ≠ ""

/-- Reading sees to the rest of what well formed documents have. -/
theorem WellRead.wellFormed {d : Document} (h : d.WellRead) : d.WellFormed := by
  obtain ⟨origin, x, hx⟩ := h.read
  obtain ⟨hread, ht⟩ := reader_yields origin x d hx
  exact { toForest := h.toForest, toReadable := hread, names := h.names, transforms := ht,
          assetNames := h.assetNames }

end Document
end SceneGraph
