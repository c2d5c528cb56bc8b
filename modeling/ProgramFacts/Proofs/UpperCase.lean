import Mathlib.Data.List.Basic
import ProgramFacts.Text.LetterCase

/-!
# Upper case is taken once

What has been put into upper case stays as it is. The code points that have an upper case and those that are one are
both given by runs, so that a comparison of the ends of runs tells that no code point is of both sorts.
-/

namespace ProgramFacts.Text

namespace CaseRun

/-- The run of a single code point. -/
def single (n : Nat) : CaseRun := ⟨n, n, 1, 0⟩

/-- Whether a code point belongs to the run. -/
def Covers (r : CaseRun) (n : Nat) : Prop := r.first ≤ n ∧ n ≤ r.last ∧ (n - r.first) % r.stride = 0

/-- The run of the images of a run. -/
def images (r : CaseRun) : CaseRun := ⟨(r.first + r.offset).toNat, (r.last + r.offset).toNat, r.stride, 0⟩

/-- Whether the ends of two runs keep them apart, or else that one has odd code points only and the other even ones. -/
def isApart (r s : CaseRun) : Bool :=
  Nat.blt s.last r.first || Nat.blt r.last s.first ||
    (Nat.beq s.stride 2 && (Nat.beq r.stride 2 || Nat.beq r.first r.last) &&
      !Nat.beq (r.first % 2) (s.first % 2))

variable {r s : CaseRun} {n m : Nat}

theorem image?_eq_some (h : r.image? n = some m) : r.Covers n ∧ m = (n + r.offset).toNat := by
  unfold image? at h
  split at h
  · next covered => exact ⟨covered, (Option.some.inj h).symm⟩
  · cases h

theorem image?_eq_none (outside : ¬r.Covers n) : r.image? n = none := if_neg outside

theorem covers_images (starts : 0 ≤ r.first + r.offset) (h : r.image? n = some m) : r.images.Covers m := by
  obtain ⟨⟨low, high, even⟩, rfl⟩ := image?_eq_some h
  refine ⟨?_, ?_, ?_⟩
  · show (r.first + r.offset).toNat ≤ (n + r.offset).toNat
    omega
  · show (n + r.offset).toNat ≤ (r.last + r.offset).toNat
    omega
  · show ((n + r.offset).toNat - (r.first + r.offset).toNat) % r.stride = 0
    have same : (n + r.offset).toNat - (r.first + r.offset).toNat = n - r.first := by omega
    rw [same]
    exact even

/-- Runs that are kept apart have no code point in common. -/
theorem not_covers_of_isApart (apart : r.isApart s = true) (covered : r.Covers n) : ¬s.Covers n := by
  rintro ⟨low, high, even⟩
  obtain ⟨low', high', even'⟩ := covered
  simp only [isApart, Bool.or_eq_true, Bool.and_eq_true, Nat.blt_eq, Nat.beq_eq, Bool.not_eq_true'] at apart
  rcases apart with (before | behind) | ⟨⟨two, two' | alone⟩, parity⟩
  · omega
  · omega
  · have different : r.first % 2 ≠ s.first % 2 := Nat.ne_of_beq_eq_false parity
    rw [two] at even
    rw [two'] at even'
    omega
  · have different : r.first % 2 ≠ s.first % 2 := Nat.ne_of_beq_eq_false parity
    rw [two] at even
    omega

end CaseRun

/-- The code points that have an upper case, as runs. -/
def lowerSide : List CaseRun := upperRuns ++ upperSequences.map fun e => .single e.1

/-- The code points that stand in an upper case, as runs. -/
def upperSide : List CaseRun :=
  upperRuns.map CaseRun.images ++ upperSequences.flatMap fun e => e.2.map CaseRun.single

theorem upperSide_apart : (upperSide.all fun r => lowerSide.all r.isApart) = true := by decide +kernel

theorem lowerSide_starts : (lowerSide.all fun r => decide (0 < r.first) && decide (0 ≤ r.first + r.offset)) = true := by
  decide +kernel

/-- A code point that stands in an upper case has none of its own. -/
theorem not_covers_of_upperSide {r s : CaseRun} {n : Nat} (above : r ∈ upperSide) (covered : r.Covers n)
    (below : s ∈ lowerSide) : ¬s.Covers n := by
  have apart := List.all_eq_true.1 (List.all_eq_true.1 upperSide_apart r above) s below
  exact CaseRun.not_covers_of_isApart apart covered

/-- Whether a character is its own upper case. -/
def IsUpper (c : Char) : Prop := upperChar c = [c]

theorem toUpper_ascii : ((List.range 0x80).all fun n =>
    decide (0x61 ≤ n ∧ n ≤ 0x7A) || (Char.ofNat n).toUpper == Char.ofNat n) = true := by decide +kernel

/-- A character that neither table has is its own upper case. -/
theorem isUpper_of_eq_none {c : Char} (notAscii : ¬c.toNat < 0x80)
    (noSequence : upperSequences.find? (·.1 == c.toNat) = none) (noImage : imageIn upperRuns c.toNat = none) :
    IsUpper c := by
  unfold IsUpper upperChar otherCase
  rw [if_neg notAscii, noSequence, noImage, Option.getD_none, Char.ofNat_toNat]

theorem isUpper_of_not_covers {c : Char} (outside : ∀ r ∈ lowerSide, ¬r.Covers c.toNat) : IsUpper c := by
  by_cases ascii : c.toNat < 0x80
  · unfold IsUpper upperChar
    rw [if_pos ascii]
    have checked := List.all_eq_true.1 toUpper_ascii c.toNat (List.mem_range.2 ascii)
    have notSmall : ¬(0x61 ≤ c.toNat ∧ c.toNat ≤ 0x7A) := by
      intro small
      have listed : ⟨0x61, 0x7A, 1, -32⟩ ∈ lowerSide := List.mem_append_left _ (List.Mem.head _)
      exact outside _ listed ⟨small.1, small.2, Nat.mod_one _⟩
    rw [Char.ofNat_toNat] at checked
    simpa [notSmall] using checked
  · have noSequence : upperSequences.find? (·.1 == c.toNat) = none := by
      rw [List.find?_eq_none]
      intro e there same
      have listed : CaseRun.single e.1 ∈ lowerSide := List.mem_append_right _ (List.mem_map_of_mem there)
      apply outside _ listed
      rw [beq_iff_eq] at same
      rw [← same]
      exact ⟨Nat.le_refl _, Nat.le_refl _, Nat.mod_one _⟩
    have noImage : imageIn upperRuns c.toNat = none := by
      rw [imageIn, List.findSome?_eq_none_iff]
      intro r there
      exact CaseRun.image?_eq_none (outside r (List.mem_append_left _ there))
    exact isUpper_of_eq_none ascii noSequence noImage

/-- A number that is no code point gives the null character. -/
theorem toNat_ofNat (n : Nat) : (Char.ofNat n).toNat = n ∨ (Char.ofNat n).toNat = 0 := by
  by_cases valid : n.isValidChar
  · left
    rw [Char.ofNat, dif_pos valid]
    rfl
  · right
    rw [Char.ofNat, dif_neg valid]
    rfl

/-- A code point that stands in an upper case gives a character that is its own upper case. -/
theorem isUpper_ofNat {r : CaseRun} {n : Nat} (above : r ∈ upperSide) (covered : r.Covers n) :
    IsUpper (Char.ofNat n) := by
  apply isUpper_of_not_covers
  intro s below
  rcases toNat_ofNat n with same | null
  · rw [same]
    exact not_covers_of_upperSide above covered below
  · have starts := List.all_eq_true.1 lowerSide_starts s below
    rw [Bool.and_eq_true, decide_eq_true_eq] at starts
    rw [null]
    rintro ⟨low, -, -⟩
    omega

theorem upper_ascii : ((List.range 0x80).all fun n =>
    let c := (Char.ofNat n).toUpper
    upperChar c == [c]) = true := by decide +kernel

/-- The upper case of a character is made of characters that are their own upper case. -/
theorem isUpper_of_mem {c d : Char} (h : d ∈ upperChar c) : IsUpper d := by
  unfold upperChar at h
  split at h
  · next ascii =>
    obtain rfl := List.mem_singleton.1 h
    have checked := List.all_eq_true.1 upper_ascii c.toNat (List.mem_range.2 ascii)
    rw [Char.ofNat_toNat] at checked
    exact eq_of_beq checked
  · next notAscii =>
    unfold otherCase at h
    split at h
    · next k ns found =>
      obtain ⟨n, there, rfl⟩ := List.mem_map.1 h
      have listed : CaseRun.single n ∈ upperSide := by
        apply List.mem_append_right
        exact List.mem_flatMap.2 ⟨(k, ns), List.mem_of_find?_eq_some found, List.mem_map_of_mem there⟩
      exact isUpper_ofNat listed ⟨Nat.le_refl _, Nat.le_refl _, Nat.mod_one _⟩
    · next noSequence =>
      obtain rfl := List.mem_singleton.1 h
      cases image : imageIn upperRuns c.toNat with
      | some m =>
        obtain ⟨r, there, found⟩ := List.exists_of_findSome?_eq_some image
        have below : r ∈ lowerSide := List.mem_append_left _ there
        have starts := List.all_eq_true.1 lowerSide_starts r below
        rw [Bool.and_eq_true, decide_eq_true_eq, decide_eq_true_eq] at starts
        have above : r.images ∈ upperSide := List.mem_append_left _ (List.mem_map_of_mem there)
        exact isUpper_ofNat above (CaseRun.covers_images starts.2 found)
      | none =>
        rw [Option.getD_none, Char.ofNat_toNat]
        exact isUpper_of_eq_none notAscii noSequence image

theorem upper_upper (s : String) : upper (upper s) = upper s := by
  have once : ∀ c, (upperChar c).flatMap upperChar = upperChar c := by
    intro c
    calc (upperChar c).flatMap upperChar
        = (upperChar c).flatMap fun d => [d] := List.flatMap_congr fun d there => isUpper_of_mem there
      _ = upperChar c := List.flatMap_singleton' _
  unfold upper
  rw [String.toList_ofList, List.flatMap_assoc]
  simp only [once]

end ProgramFacts.Text
