import Clearance.Text.Upper
import Mathlib.Data.List.Basic

/-!
# Clearance — Proofs — Text — Texts up to case

An outcome is raised by the full mapping of Unicode when it is reported, and compared up to the case
of ASCII letters when it is looked for.

* `Text.eqIgnoringAsciiCase_trans`: equality up to ASCII case is an equivalence.
* `Text.eqIgnoringAsciiCase_upper`: a text is equal to its upper case so exactly if each character
  that is not ASCII is its own upper case.
-/

namespace Clearance

namespace Text

/-! ### An equivalence -/

section Equivalence

variable {s t u : String}

theorem eqIgnoringAsciiCase_iff :
    eqIgnoringAsciiCase s t = true ↔ s.toList.map asciiLower = t.toList.map asciiLower :=
  beq_iff_eq

theorem eqIgnoringAsciiCase_symm (h : eqIgnoringAsciiCase s t = true) :
    eqIgnoringAsciiCase t s = true :=
  eqIgnoringAsciiCase_iff.mpr (eqIgnoringAsciiCase_iff.mp h).symm

theorem eqIgnoringAsciiCase_trans (h : eqIgnoringAsciiCase s t = true)
    (h' : eqIgnoringAsciiCase t u = true) : eqIgnoringAsciiCase s u = true :=
  eqIgnoringAsciiCase_iff.mpr
    ((eqIgnoringAsciiCase_iff.mp h).trans (eqIgnoringAsciiCase_iff.mp h'))

end Equivalence

/-! ### One character -/

/-- What holds of the characters of all ASCII codes holds of every ASCII character. -/
theorem forall_ascii {P : Char → Prop} (h : ∀ n < 128, P (Char.ofNat n)) {c : Char}
    (hc : c.toNat < 128) : P c := by
  have hn := h c.toNat hc
  rwa [Char.ofNat_toNat] at hn

/-- No character vanishes in upper case. -/
theorem upperChar_ne_nil (c : Char) : upperChar c ≠ [] := by
  have hcodes : ∀ p ∈ upperSequences, p.2 ≠ [] := by decide
  unfold upperChar
  split
  · exact List.cons_ne_nil _ _
  split
  · rename_i codes hlook
    obtain ⟨before, rest, heq, -⟩ := List.lookup_eq_some_iff.mp hlook
    rw [Ne, List.map_eq_nil_iff]
    exact hcodes _ (heq ▸ List.mem_append_right _ List.mem_cons_self)
  split
  · exact List.cons_ne_nil _ _
  · exact List.cons_ne_nil _ _

theorem asciiLower_of_not_ascii {c : Char} (hc : 128 ≤ c.toNat) : asciiLower c = c := by
  refine if_neg fun h => ?_
  have hz : c.toNat ≤ 'Z'.toNat := h.2
  have hcode : 'Z'.toNat = 90 := rfl
  omega

/-- Only a character that is not ASCII has itself as its lower case and is not ASCII. -/
theorem eq_of_asciiLower_eq {c c' : Char} (hc : 128 ≤ c.toNat) (h : asciiLower c' = c) : c' = c := by
  have hlow : ∀ n < 128, (asciiLower (Char.ofNat n)).toNat < 128 := by decide +kernel
  by_cases hc' : c'.toNat < 128
  · have hlt := forall_ascii (P := fun c => (asciiLower c).toNat < 128) hlow hc'
    rw [h] at hlt
    omega
  · exact (asciiLower_of_not_ascii (Nat.not_lt.mp hc')).symm.trans h

/-- The upper case of a character is the character up to ASCII case if it is ASCII, or its own upper
case. -/
theorem map_asciiLower_upperChar {c : Char} :
    (upperChar c).map asciiLower = [asciiLower c] ↔ (128 ≤ c.toNat → upperChar c = [c]) := by
  have hraise : ∀ n < 128, asciiLower (Char.ofNat n).toUpper = asciiLower (Char.ofNat n) := by
    decide +kernel
  by_cases hc : c.toNat < 128
  · have hup := forall_ascii (P := fun c => asciiLower c.toUpper = asciiLower c) hraise hc
    rw [upperChar, if_pos hc, List.map_singleton, hup]
    exact ⟨fun _ h => absurd hc (Nat.not_lt.mpr h), fun _ => rfl⟩
  · have hge := Nat.not_lt.mp hc
    constructor
    · intro h _
      obtain ⟨c', hc', hlow⟩ := List.map_eq_singleton_iff.mp h
      rw [hc', eq_of_asciiLower_eq hge (hlow.trans (asciiLower_of_not_ascii hge))]
    · intro h
      rw [h hge, List.map_singleton]

/-! ### A whole text -/

/-- If no image is empty, the images one after the other are as many only if each is a single one. -/
theorem flatMap_eq_map_iff {α β : Type} {f : α → List β} {g : α → β} (hf : ∀ a, f a ≠ [])
    {l : List α} : l.flatMap f = l.map g ↔ ∀ a ∈ l, f a = [g a] := by
  have hlong : ∀ l : List α, l.length ≤ (l.flatMap f).length := by
    intro l
    induction l with
    | nil => exact Nat.le_refl 0
    | cons a rest ih =>
        have hpos := List.length_pos_of_ne_nil (hf a)
        rw [List.flatMap_cons, List.length_append, List.length_cons]
        omega
  induction l with
  | nil => simp
  | cons a rest ih =>
      rw [List.flatMap_cons, List.map_cons, List.forall_mem_cons]
      refine Iff.trans ?_ (and_congr_right fun _ => ih)
      constructor
      · intro h
        obtain ⟨b, bs, hb⟩ := List.exists_cons_of_ne_nil (hf a)
        rw [hb, List.cons_append] at h
        obtain ⟨rfl, htail⟩ := List.cons.inj h
        -- the rest is already as long as its images are
        have hlen := congrArg List.length htail
        rw [List.length_append, List.length_map] at hlen
        have hle := hlong rest
        obtain rfl : bs = [] := List.eq_nil_of_length_eq_zero (by omega)
        exact ⟨hb, htail⟩
      · rintro ⟨ha, hrest⟩
        rw [ha, hrest, List.singleton_append]

/-- **Upper case and ASCII case.** A text is equal to its upper case up to the case of ASCII letters
exactly if each of its characters that is not ASCII is its own upper case. -/
theorem eqIgnoringAsciiCase_upper {s : String} :
    eqIgnoringAsciiCase s (upper s) = true ↔
      ∀ c ∈ s.toList, 128 ≤ c.toNat → upperChar c = [c] := by
  have hne : ∀ c, (upperChar c).map asciiLower ≠ [] := fun c h =>
    upperChar_ne_nil c (List.map_eq_nil_iff.mp h)
  rw [eqIgnoringAsciiCase_iff, upper, String.toList_ofList, List.map_flatMap, eq_comm,
    flatMap_eq_map_iff hne]
  exact forall₂_congr fun c _ => map_asciiLower_upperChar

/-- A text in ASCII is recognized in upper case, and one with an umlaut in lower case is not. -/
example : eqIgnoringAsciiCase "granted" (upper "granted") = true ∧
    eqIgnoringAsciiCase "gewährt" (upper "gewährt") = false := by
  decide +kernel

end Text

end Clearance
