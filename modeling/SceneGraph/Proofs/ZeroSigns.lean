import SceneGraph.JsonLayouts
import SceneGraph.Proofs.KeyframeLists

/-!
# Zero signs: the only thing in a text that equality by value does not see

Two pieces of data that are the same by value can be written differently only where they hold zeros
of different signs. So of two such texts the signs of the zeros determine the text, and the text
determines the signs. The proof follows the writer, and every piece is settled with whatever may be
written after it.
-/
namespace SceneGraph

namespace Binary64
variable {x y : Binary64}

theorem natAbs_order (x : Binary64) : x.order.natAbs = x.magnitude := by
  rw [order]
  split <;> omega

/-- Numbers of the same value are the same number or the two zeros. -/
theorem eq_or_zeros (h : x.order = y.order) :
    x = y ∨ x.isZero = true ∧ y.isZero = true ∧ x.isNegative ≠ y.isNegative := by
  have hbits : x.bits.toNat = y.bits.toNat → x = y := by
    intro hxy
    cases x
    cases y
    exact congrArg mk (UInt64.toNat_inj.mp hxy)
  have hnegative (z : Binary64) : z.isNegative = true ↔ signBit ≤ z.bits.toNat := by
    simp [isNegative]
  have hmagnitude (z : Binary64) : z.magnitude + (if z.isNegative then signBit else 0) =
      z.bits.toNat := by
    have hbound := z.bits.toNat_lt
    simp only [magnitude, hnegative, signBit]
    split <;> omega
  have hx := hmagnitude x
  have hy := hmagnitude y
  -- with different signs one magnitude is the negative of the other, so both are zero
  cases hxn : x.isNegative <;> cases hyn : y.isNegative <;>
    simp only [order, isZero, hxn, hyn, if_true, if_false, Bool.false_eq_true,
      decide_eq_true_eq] at *
  · exact .inl (hbits (by omega))
  · exact .inr ⟨by omega, by omega, Bool.false_ne_true⟩
  · exact .inr ⟨by omega, by omega, Bool.false_ne_true.symm⟩
  · exact .inl (hbits (by omega))

theorem dataText_of_isZero (h : x.isZero = true) :
    x.dataText = if x.isNegative then "-0.0" else "0.0" := by
  rw [dataText, if_pos h, signed]
  rfl

end Binary64

/-- Two lists settle a statement if it holds whenever they can be continued to one list, and the
continuations are then the same. -/
def Settles {α : Type} (p : Prop) (as bs : List α) : Prop :=
  ∀ s t, as ++ s = bs ++ t → p ∧ s = t

namespace Settles
variable {α : Type} {p q : Prop} {as as' bs bs' : List α}

theorem refl (hp : p) (as : List α) : Settles p as as :=
  fun _ _ h => ⟨hp, List.append_cancel_left h⟩

theorem imp (h : Settles p as bs) (hpq : p → q) : Settles q as bs := fun s t hst =>
  ⟨hpq (h s t hst).1, (h s t hst).2⟩

theorem append (h : Settles p as bs) (h' : Settles q as' bs') :
    Settles (p ∧ q) (as ++ as') (bs ++ bs') := by
  intro s t hst
  rw [List.append_assoc, List.append_assoc] at hst
  obtain ⟨hp, hrest⟩ := h _ _ hst
  obtain ⟨hq, hend⟩ := h' _ _ hrest
  exact ⟨⟨hp, hq⟩, hend⟩

theorem between (h : Settles p as bs) (opening closing : List α) :
    Settles p (opening ++ as ++ closing) (opening ++ bs ++ closing) :=
  (((refl trivial opening).append h).append (refl trivial closing)).imp fun hp => hp.1.2

/-- Lists that begin with different elements settle anything. -/
theorem of_ne {a b : α} (h : a ≠ b) : Settles p (a :: as) (b :: bs) :=
  fun _ _ hst => absurd (List.cons.inj hst).1 h

theorem of_eq (h : Settles p as bs) (heq : as = bs) : p := (h [] [] (by rw [heq])).1

end Settles

/-- A way in which data is written: the signs of its zeros in order, and its compact text at a
depth. -/
structure Writing where
  signs : List Bool
  text : Nat → String

/-- The signs alone settle a statement about two pieces of data, and so do the texts alone. -/
structure Writing.Tells (p : Prop) (w w' : Writing) : Prop where
  signs : Settles p w.signs w'.signs
  text : ∀ depth, Settles p (w.text depth).toList (w'.text depth).toList

/-- The same of two sequences of which the items are written with commas between them. -/
structure Writing.TellAll (p : Prop) (signs signs' : List Bool) (texts texts' : Nat → List String) :
    Prop where
  signs : Settles p signs signs'
  length : ∀ depth, (texts depth).length = (texts' depth).length
  text : ∀ depth, Settles p (String.intercalate "," (texts depth)).toList
    (String.intercalate "," (texts' depth)).toList

namespace Writing
open JsonText
variable {p q : Prop} {w w' : Writing} {signs signs' : List Bool} {texts texts' : Nat → List String}

theorem Tells.refl (hp : p) (w : Writing) : Tells p w w := ⟨.refl hp _, fun _ => .refl hp _⟩

theorem Tells.imp (h : Tells p w w') (hpq : p → q) : Tells q w w' :=
  ⟨h.signs.imp hpq, fun depth => (h.text depth).imp hpq⟩

theorem TellAll.imp (h : TellAll p signs signs' texts texts') (hpq : p → q) :
    TellAll q signs signs' texts texts' :=
  ⟨h.signs.imp hpq, h.length, fun depth => (h.text depth).imp hpq⟩

theorem TellAll.nil (hp : p) : TellAll p [] [] (fun _ => []) (fun _ => []) :=
  ⟨.refl hp _, fun _ => rfl, fun _ => .refl hp _⟩

theorem TellAll.cons (h : Tells p w w') (hall : TellAll q signs signs' texts texts') :
    TellAll (p ∧ q) (w.signs ++ signs) (w'.signs ++ signs')
      (fun depth => w.text depth :: texts depth) (fun depth => w'.text depth :: texts' depth) := by
  refine ⟨h.signs.append hall.signs, fun depth => by simp [hall.length depth], fun depth => ?_⟩
  have hhead := h.text depth
  have hrest := hall.text depth
  have hlength := hall.length depth
  cases ht : texts depth with
  | nil =>
    have ht' : texts' depth = [] := List.length_eq_zero_iff.mp (by rw [← hlength, ht]; rfl)
    rw [ht, ht'] at hrest
    simpa only [ht', String.intercalate_singleton, String.intercalate_nil, String.toList_empty,
      List.append_nil] using hhead.append hrest
  | cons text more =>
    obtain ⟨text', more', ht'⟩ := List.exists_cons_of_length_eq_add_one
      (l := texts' depth) (n := more.length) (by rw [← hlength, ht]; rfl)
    rw [ht, ht'] at hrest
    have hcomma := hhead.append (hrest.between ",".toList [])
    simpa only [ht', String.intercalate_cons_cons, String.toList_append, List.append_assoc,
      List.append_nil] using hcomma

/-- A container tells what its items tell. -/
theorem TellAll.block (h : TellAll p signs signs' texts texts') (opening closing : String) :
    Tells p ⟨signs, fun depth => block .compact depth opening closing (texts (depth + 1))⟩
      ⟨signs', fun depth => block .compact depth opening closing (texts' (depth + 1))⟩ := by
  have hblock (depth : Nat) (items : List String) :
      (JsonText.block .compact depth opening closing items).toList =
        opening.toList ++ (String.intercalate "," items).toList ++ closing.toList := by
    cases items <;> simp [JsonText.block]
  refine ⟨h.signs, fun depth => ?_⟩
  simpa only [hblock] using (h.text (depth + 1)).between opening.toList closing.toList

/-- A member tells what its value tells. -/
theorem Tells.member (h : Tells p w w') (name : String) :
    Tells p ⟨w.signs, fun depth => member .compact name (w.text depth)⟩
      ⟨w'.signs, fun depth => member .compact name (w'.text depth)⟩ := by
  refine ⟨h.signs, fun depth => ?_⟩
  simpa [JsonText.member] using (h.text depth).between ((quoted name).toList ++ ":".toList) []

end Writing

namespace Number

/-- The sign of a zero that has one. -/
def zeroSigns : Number → List Bool
  | .int _ => []
  | .float x _ => if x.isZero then [x.isNegative] else []

theorem tells {m n : Number} (h : (m == n) = true) :
    Writing.Tells (m = n) ⟨m.zeroSigns, fun _ => JsonText.number m⟩
      ⟨n.zeroSigns, fun _ => JsonText.number n⟩ := by
  cases m with
  | int m =>
    cases n with
    | int n =>
      obtain rfl : m = n := eq_of_beq h
      exact .refl rfl _
    | float y hy => exact absurd h Bool.false_ne_true
  | float x hx =>
    cases n with
    | int n => exact absurd h Bool.false_ne_true
    | float y hy =>
      obtain rfl | ⟨hx0, hy0, hne⟩ := Binary64.eq_or_zeros ((Binary64.beq_iff hx hy).mp h)
      · exact .refl rfl _
      · refine ⟨?_, fun depth => ?_⟩
        · simp only [zeroSigns, hx0, hy0, if_true]
          exact .of_ne hne
        · simp only [JsonText.number, Binary64.dataText_of_isZero, hx0, hy0]
          -- One of the two texts begins with the sign, the other with a digit.
          cases hxn : x.isNegative <;> cases hyn : y.isNegative
          · exact absurd (hxn.trans hyn.symm) hne
          · exact .of_ne (by decide)
          · exact .of_ne (by decide)
          · exact absurd (hxn.trans hyn.symm) hne

end Number

namespace Json
open JsonText Writing

mutual
/-- The signs of the zeros in a value, in the order in which they are written. -/
def zeroSigns : Json → List Bool
  | .num n => n.zeroSigns
  | .arr items => itemSigns items
  | .obj members => memberSigns members
  | .null | .bool _ | .str _ => []

def itemSigns : List Json → List Bool
  | [] => []
  | x :: xs => zeroSigns x ++ itemSigns xs

def memberSigns : {low : Option String} → Ascending Json low → List Bool
  | _, .nil => []
  | _, .cons _ _ v rest => zeroSigns v ++ memberSigns rest
end

def writing (j : Json) : Writing := ⟨j.zeroSigns, fun depth => j.render .compact depth⟩

mutual
theorem tells : (a b : Json) → same a b = true → Tells (a = b) a.writing b.writing
  | .null, b, h => by
    cases b with
    | null => exact .refl rfl _
    | _ => simp [same] at h
  | .bool a, b, h => by
    cases b with
    | bool b =>
      obtain rfl : a = b := by simpa [same] using h
      exact .refl rfl _
    | _ => simp [same] at h
  | .num m, b, h => by
    cases b with
    | num n => exact (Number.tells (by simpa only [same] using h)).imp (congrArg num)
    | _ => simp [same] at h
  | .str s, b, h => by
    cases b with
    | str t =>
      obtain rfl : s = t := by simpa [same] using h
      exact .refl rfl _
    | _ => simp [same] at h
  | .arr xs, b, h => by
    cases b with
    | arr ys =>
      have hitems : sameItems xs ys = true := by simpa only [same] using h
      exact ((tellItems xs ys hitems).block "[" "]").imp (congrArg arr)
    | _ => simp [same] at h
  | .obj xs, b, h => by
    cases b with
    | obj ys =>
      have hmembers : sameMembers xs ys = true := by simpa only [same] using h
      exact ((tellMembers xs ys hmembers).block "\x7b" "\x7d").imp (congrArg obj)
    | _ => simp [same] at h

theorem tellItems : (xs ys : List Json) → sameItems xs ys = true →
    TellAll (xs = ys) (itemSigns xs) (itemSigns ys) (renderItems .compact · xs)
      (renderItems .compact · ys)
  | [], ys, h => by
    cases ys with
    | nil => exact .nil rfl
    | cons y ys => simp [sameItems] at h
  | x :: xs, ys, h => by
    cases ys with
    | nil => simp [sameItems] at h
    | cons y ys =>
      simp only [sameItems, Bool.and_eq_true] at h
      refine (TellAll.cons (tells x y h.1) (tellItems xs ys h.2)).imp ?_
      rintro ⟨rfl, rfl⟩
      rfl

theorem tellMembers : {low : Option String} → (xs ys : Ascending Json low) →
    sameMembers xs ys = true →
    TellAll (xs = ys) (memberSigns xs) (memberSigns ys) (renderMembers .compact · xs)
      (renderMembers .compact · ys)
  | _, .nil, ys, h => by
    cases ys with
    | nil => exact .nil rfl
    | cons k above v rest => simp [sameMembers] at h
  | _, .cons k above v rest, ys, h => by
    cases ys with
    | nil => simp [sameMembers] at h
    | cons k' above' v' rest' =>
      simp only [sameMembers, Bool.and_eq_true, beq_iff_eq] at h
      obtain ⟨⟨rfl, hv⟩, hrest⟩ := h
      refine (TellAll.cons ((tells v v' hv).member k) (tellMembers rest rest' hrest)).imp ?_
      rintro ⟨rfl, rfl⟩
      rfl
end

end Json

namespace Layout
open JsonText Writing

mutual
/-- Equality of what is written, with numbers compared by value and the fields of a record in the
order in which they are given. -/
def same : Layout → Layout → Bool
  | .value a, .value b => a == b
  | .list xs, .list ys => sameItems xs ys
  | .record xs, .record ys => sameFields xs ys
  | _, _ => false

def sameItems : List Layout → List Layout → Bool
  | [], [] => true
  | x :: xs, y :: ys => same x y && sameItems xs ys
  | _, _ => false

def sameFields : List (String × Layout) → List (String × Layout) → Bool
  | [], [] => true
  | (k, x) :: xs, (k', y) :: ys => k == k' && same x y && sameFields xs ys
  | _, _ => false
end

mutual
/-- The signs of the zeros in a layout, in the order in which they are written. -/
def zeroSigns : Layout → List Bool
  | .value j => j.zeroSigns
  | .list items => itemSigns items
  | .record fields => fieldSigns fields

def itemSigns : List Layout → List Bool
  | [] => []
  | x :: xs => zeroSigns x ++ itemSigns xs

def fieldSigns : List (String × Layout) → List Bool
  | [] => []
  | (_, x) :: rest => zeroSigns x ++ fieldSigns rest
end

def writing (x : Layout) : Writing := ⟨x.zeroSigns, fun depth => x.render .compact depth⟩

mutual
theorem tells : (a b : Layout) → same a b = true → Tells (a = b) a.writing b.writing
  | .value a, b, h => by
    cases b with
    | value b =>
      have hvalue : (a == b) = true := by simpa only [same] using h
      exact (Json.tells a b hvalue).imp (congrArg value)
    | _ => simp [same] at h
  | .list xs, b, h => by
    cases b with
    | list ys =>
      have hitems : sameItems xs ys = true := by simpa only [same] using h
      exact ((tellItems xs ys hitems).block "[" "]").imp (congrArg list)
    | _ => simp [same] at h
  | .record xs, b, h => by
    cases b with
    | record ys =>
      have hfields : sameFields xs ys = true := by simpa only [same] using h
      exact ((tellFields xs ys hfields).block "\x7b" "\x7d").imp (congrArg record)
    | _ => simp [same] at h

theorem tellItems : (xs ys : List Layout) → sameItems xs ys = true →
    TellAll (xs = ys) (itemSigns xs) (itemSigns ys) (renderItems .compact · xs)
      (renderItems .compact · ys)
  | [], ys, h => by
    cases ys with
    | nil => exact .nil rfl
    | cons y ys => simp [sameItems] at h
  | x :: xs, ys, h => by
    cases ys with
    | nil => simp [sameItems] at h
    | cons y ys =>
      simp only [sameItems, Bool.and_eq_true] at h
      refine (TellAll.cons (tells x y h.1) (tellItems xs ys h.2)).imp ?_
      rintro ⟨rfl, rfl⟩
      rfl

theorem tellFields : (xs ys : List (String × Layout)) → sameFields xs ys = true →
    TellAll (xs = ys) (fieldSigns xs) (fieldSigns ys) (renderFields .compact · xs)
      (renderFields .compact · ys)
  | [], ys, h => by
    cases ys with
    | nil => exact .nil rfl
    | cons y ys => simp [sameFields] at h
  | (k, x) :: xs, ys, h => by
    cases ys with
    | nil => simp [sameFields] at h
    | cons y ys =>
      simp only [sameFields, Bool.and_eq_true, beq_iff_eq] at h
      obtain ⟨⟨rfl, hx⟩, hxs⟩ := h
      refine (TellAll.cons ((tells x y.2 hx).member _) (tellFields xs ys hxs)).imp ?_
      rintro ⟨hxy, rfl⟩
      rw [hxy]
end

/-- The signs of zeros are all in which layouts can differ that are the same by value. -/
theorem eq_of_zeroSigns {a b : Layout} (h : a.same b = true) (hs : a.zeroSigns = b.zeroSigns) :
    a = b := (tells a b h).signs.of_eq hs

theorem text_eq_iff {a b : Layout} (h : a.same b = true) :
    a.text = b.text ↔ a.zeroSigns = b.zeroSigns := by
  constructor
  · intro ht
    rw [((tells a b h).text 0).of_eq (congrArg String.toList ht)]
  · intro hs
    rw [eq_of_zeroSigns h hs]

end Layout
end SceneGraph
