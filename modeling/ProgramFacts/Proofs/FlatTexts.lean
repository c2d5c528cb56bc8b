import ProgramFacts.Model.Form
import ProgramFacts.Proofs.UpperCase
import ProgramFacts.Proofs.ValueTerms

/-!
# Texts on one line

A text is flat if it has neither a line feed nor a carriage return. Lower case keeps a text flat, since no letter has a
line end for its lower case. Whatever is shown in a message is flat: numbers and dates by what they are written with,
quoted texts because line ends are escaped. So a form has a flat name if its texts outside of documentation are flat.
-/

namespace ProgramFacts

namespace Text

/-- Whether the character ends a line. -/
def isBreak (c : Char) : Bool := c == '\n' || c == '\r'

/-- Whether no line ends in the text. -/
def IsFlat (cs : List Char) : Prop := ∀ c ∈ cs, isBreak c = false

theorem isFlat_iff {cs : List Char} : IsFlat cs ↔ '\n' ∉ cs ∧ '\r' ∉ cs := by
  constructor
  · intro flat
    exact ⟨fun member => Bool.noConfusion (flat _ member), fun member => Bool.noConfusion (flat _ member)⟩
  · rintro ⟨feedless, returnless⟩ c member
    have feed : c ≠ '\n' := fun same => feedless (same ▸ member)
    have carriage : c ≠ '\r' := fun same => returnless (same ▸ member)
    simp [isBreak, feed, carriage]

@[simp] theorem isFlat_nil : IsFlat [] := by simp [IsFlat]

@[simp] theorem isFlat_cons {c : Char} {cs : List Char} : IsFlat (c :: cs) ↔ isBreak c = false ∧ IsFlat cs :=
  List.forall_mem_cons

@[simp] theorem isFlat_append {as bs : List Char} : IsFlat (as ++ bs) ↔ IsFlat as ∧ IsFlat bs :=
  List.forall_mem_append

theorem isFlat_flatMap {α : Type} {f : α → List Char} {as : List α} (each : ∀ a ∈ as, IsFlat (f a)) :
    IsFlat (as.flatMap f) := by
  intro c member
  obtain ⟨a, there, within⟩ := List.mem_flatMap.1 member
  exact each a there c within

theorem isFlat_intercalate {separator : List Char} {pieces : List (List Char)} (flat : IsFlat separator)
    (each : ∀ p ∈ pieces, IsFlat p) : IsFlat (separator.intercalate pieces) := by
  induction pieces with
  | nil => simp
  | cons p ps ih =>
    have first := each p List.mem_cons_self
    have others := ih fun q there => each q (List.mem_cons_of_mem _ there)
    cases ps with
    | nil => simpa using first
    | cons q qs =>
      rw [List.intercalate_cons_cons]
      simp [first, flat, others]

/-- Whether no line ends in any of the texts. -/
def AreFlat (ss : List String) : Prop := ∀ s ∈ ss, IsFlat s.toList

@[simp] theorem areFlat_nil : AreFlat [] := by simp [AreFlat]

@[simp] theorem areFlat_cons {s : String} {ss : List String} : AreFlat (s :: ss) ↔ IsFlat s.toList ∧ AreFlat ss :=
  List.forall_mem_cons

@[simp] theorem areFlat_append {as bs : List String} : AreFlat (as ++ bs) ↔ AreFlat as ∧ AreFlat bs :=
  List.forall_mem_append

@[simp] theorem areFlat_flatMap {α : Type} {f : α → List String} {as : List α} :
    AreFlat (as.flatMap f) ↔ ∀ a ∈ as, AreFlat (f a) := by
  induction as with
  | nil => simp
  | cons a as ih => rw [List.flatMap_cons, areFlat_append, ih, List.forall_mem_cons]

theorem isFlat_joinWith {separator : String} {pieces : List String} (flat : IsFlat separator.toList)
    (each : AreFlat pieces) : IsFlat (joinWith separator pieces).toList := by
  rw [joinWith, String.toList_ofList]
  refine isFlat_intercalate flat fun cs member => ?_
  obtain ⟨p, there, rfl⟩ := List.mem_map.1 member
  exact each p there

/-! ## Digits -/

theorem isBreak_of_isDigit {c : Char} (digit : c.isDigit = true) : isBreak c = false := by
  have other {d : Char} (plain : d.isDigit = false) : c ≠ d := by
    rintro rfl
    rw [plain] at digit
    cases digit
  simp [isBreak, other (d := '\n') (by decide), other (d := '\r') (by decide)]

theorem isFlat_digits {n : Nat} : IsFlat (Nat.toDigits 10 n) := fun _ member =>
  isBreak_of_isDigit (Nat.isDigit_of_mem_toDigits (by decide) (by decide) member)

theorem isFlat_replicate {n : Nat} {c : Char} (plain : isBreak c = false) : IsFlat (List.replicate n c) := by
  intro d member
  rwa [List.eq_of_mem_replicate member]

theorem isFlat_leftpad {w : Nat} {cs : List Char} (flat : IsFlat cs) : IsFlat (cs.leftpad w '0') :=
  isFlat_append.2 ⟨isFlat_replicate (by decide), flat⟩

theorem isBreak_digitChar {d : Nat} (small : d < 16) : isBreak d.digitChar = false := by
  have all : ∀ e < 16, isBreak (Nat.digitChar e) = false := by decide
  exact all d small

theorem isFlat_hexDigits (width n : Nat) : IsFlat (hexDigits width n) := by
  refine isFlat_leftpad ?_
  induction n using Nat.strongRecOn with
  | ind n ih =>
    rw [Nat.toDigits_eq_if (by decide)]
    split
    · next small => simp [isBreak_digitChar small]
    · next large =>
      have last := isBreak_digitChar (Nat.mod_lt n (by decide : 0 < 16))
      simp [ih (n / 16) (by omega), last]

theorem isFlat_toString_nat (n : Nat) : IsFlat (toString n).toList := by
  rw [Nat.toString_eq_ofList_toDigits, String.toList_ofList]
  exact isFlat_digits

theorem isFlat_toString_int (n : Int) : IsFlat (toString n).toList := by
  intro c member
  rcases (Bool.or_eq_true _ _).mp (Value.numeric_of_mem_toString member) with digit | minus
  · exact isBreak_of_isDigit digit
  · rw [eq_of_beq minus]
    decide

/-! ## Quoted texts -/

theorem isFlat_quoteChar {mark : Char} (plain : isBreak mark = false) (c : Char) : IsFlat (quoteChar mark c) := by
  have slash : isBreak '\\' = false := by simp [isBreak]
  have hex (letter : Char) (width : Nat) (known : isBreak letter = false) :
      IsFlat ('\\' :: letter :: hexDigits width c.toNat) :=
    isFlat_cons.2 ⟨slash, isFlat_cons.2 ⟨known, isFlat_hexDigits _ _⟩⟩
  unfold quoteChar
  split
  · next escaped =>
    have own : isBreak c = false := by
      rcases escaped with rfl | rfl
      · exact plain
      · exact slash
    simp [slash, own]
  · split
    · simp [isBreak]
    · split
      · simp [isBreak]
      · next feed carriage =>
        split
        · simp [isBreak]
        · split
          · simp [isBreak, feed, carriage]
          · split
            · exact hex 'x' 2 (by simp [isBreak])
            · split
              · exact hex 'u' 4 (by simp [isBreak])
              · exact hex 'U' 8 (by simp [isBreak])

theorem isBreak_quoteMark (cs : List Char) : isBreak (quoteMark cs) = false := by
  rw [quoteMark]
  split <;> decide

/-- Line ends are escaped in quotes. -/
theorem isFlat_quoted (s : String) : IsFlat (quoted s).toList := by
  have mark := isBreak_quoteMark s.toList
  rw [quoted, String.toList_ofList]
  simp only [List.cons_append, isFlat_cons, isFlat_append, mark, isFlat_nil, and_true, true_and]
  exact isFlat_flatMap fun c _ => isFlat_quoteChar mark c

theorem isFlat_quotedBytes (bytes : List UInt8) : IsFlat (quotedBytes bytes).toList := by
  have mark := isBreak_quoteMark (bytes.map fun b => Char.ofNat b.toNat)
  rw [quotedBytes, String.toList_ofList]
  simp only [List.cons_append, isFlat_cons, isFlat_append, mark, isFlat_nil, and_true, true_and]
  refine ⟨by decide, isFlat_flatMap fun b _ => ?_⟩
  rw [quoteByte]
  split
  · exact isFlat_quoteChar mark _
  · simp only [isFlat_cons, isFlat_hexDigits]
    decide

/-! ## Lower case -/

theorem isBreak_ofNat {n : Nat} (high : 0x20 ≤ n) : isBreak (Char.ofNat n) = false := by
  have apart {d : Char} (low : d.toNat ≠ 0 ∧ d.toNat < 0x20) : Char.ofNat n ≠ d := by
    rintro rfl
    rcases toNat_ofNat n with same | null
    · omega
    · omega
  simp [isBreak, apart (d := '\n') (by decide), apart (d := '\r') (by decide)]

theorem toLower_ascii : ((List.range 0x80).all fun n =>
    isBreak (Char.ofNat n).toLower == isBreak (Char.ofNat n)) = true := by decide +kernel

/-- No code point below the blank stands in a lower case. -/
theorem lowerRuns_high : (lowerRuns.all fun r => decide (0x20 ≤ r.first + r.offset)) = true := by decide +kernel

theorem lowerSequences_high : (lowerSequences.all fun e => e.2.all fun n => decide (0x20 ≤ n)) = true := by
  decide +kernel

theorem isFlat_lowerChar {c : Char} (plain : isBreak c = false) : IsFlat (lowerChar c) := by
  unfold lowerChar
  split
  · next ascii =>
    have checked := List.all_eq_true.1 toLower_ascii c.toNat (List.mem_range.2 ascii)
    rw [Char.ofNat_toNat] at checked
    simp [eq_of_beq checked, plain]
  · unfold otherCase
    split
    · next k ns found =>
      have high := List.all_eq_true.1 lowerSequences_high (k, ns) (List.mem_of_find?_eq_some found)
      intro d member
      obtain ⟨n, there, rfl⟩ := List.mem_map.1 member
      exact isBreak_ofNat (of_decide_eq_true (List.all_eq_true.1 high n there))
    · cases image : imageIn lowerRuns c.toNat with
      | none => simp [plain]
      | some m =>
        obtain ⟨r, there, found⟩ := List.exists_of_findSome?_eq_some image
        have high := of_decide_eq_true (List.all_eq_true.1 lowerRuns_high r there)
        obtain ⟨⟨low, -, -⟩, rfl⟩ := CaseRun.image?_eq_some found
        simp [isBreak_ofNat (n := (c.toNat + r.offset).toNat) (by omega)]

theorem isFlat_lowerFrom {before cs : List Char} (flat : IsFlat cs) : IsFlat (lowerFrom before cs) := by
  induction cs generalizing before with
  | nil => simp [lowerFrom]
  | cons c cs ih =>
    obtain ⟨first, others⟩ := isFlat_cons.1 flat
    rw [lowerFrom, isFlat_append]
    refine ⟨?_, ih others⟩
    split
    · rw [lowerSigma]
      split <;> simp [isBreak_ofNat]
    · exact isFlat_lowerChar first

/-- Lower case ends no line. -/
theorem isFlat_lower {s : String} (flat : IsFlat s.toList) : IsFlat (lower s).toList := by
  rw [lower, String.toList_ofList]
  exact isFlat_lowerFrom flat

end Text

open Text

/-! ## Numbers and dates -/

namespace Numeral

/-- What a style puts between digits ends no line. -/
structure NumberStyle.IsFlat (style : NumberStyle) : Prop where
  mark : isBreak style.mark = false
  notNumber : Text.IsFlat style.notNumber.toList
  infinity : Text.IsFlat style.infinity.toList

theorem isFlat_factStyle : factStyle.IsFlat := by constructor <;> simp [factStyle, isBreak]

theorem isFlat_messageStyle : messageStyle.IsFlat := by constructor <;> simp [messageStyle, isBreak]

theorem isFlat_exponentText (style : NumberStyle) (e : Int) : Text.IsFlat (exponentText style e) := by
  rw [exponentText, isFlat_append]
  refine ⟨?_, isFlat_leftpad isFlat_digits⟩
  split
  · simp [isBreak]
  · split <;> simp [isBreak]

theorem isFlat_chars {style : NumberStyle} (flat : style.IsFlat) {s : Spelling} (proper : s.IsProper) :
    Text.IsFlat (s.chars style) := by
  have whole : Text.IsFlat s.whole := fun c member => isBreak_of_isDigit (proper.whole c member)
  have fraction : Text.IsFlat s.fraction := fun c member => isBreak_of_isDigit (proper.fraction c member)
  have point : isBreak '.' = false := by simp [isBreak]
  rw [Spelling.chars, isFlat_append, isFlat_append, Spelling.fractionChars, Spelling.exponentChars]
  refine ⟨whole, ?_, ?_⟩
  · split
    · exact isFlat_nil
    · exact isFlat_cons.2 ⟨point, fraction⟩
  · split
    · exact isFlat_nil
    · exact isFlat_cons.2 ⟨flat.mark, isFlat_exponentText style _⟩

/-- A number is written on one line. -/
theorem isFlat_text {style : NumberStyle} (flat : style.IsFlat) (x : Binary64) : Text.IsFlat (x.text style).toList := by
  rw [Binary64.toList_text, isFlat_append]
  constructor
  · split <;> simp [isBreak]
  · cases x with
    | nan => exact flat.notNumber
    | infinite n => exact flat.infinity
    | finite n s e => exact isFlat_chars flat (Decimal.isProper_spelling _ style)

end Numeral

theorem isFlat_padded (width n : Nat) : IsFlat (padded width n).toList := by
  rw [padded, String.toList_ofList]
  exact isFlat_leftpad isFlat_digits

theorem Date.isFlat_text (d : Date) : IsFlat d.text.toList := by
  have hyphen : IsFlat "-".toList := by simp [isBreak]
  simp only [Date.text, String.toList_append, isFlat_append, isFlat_padded, hyphen, and_self]

theorem Moment.isFlat_text (m : Moment) : IsFlat m.text.toList := by
  have colon : IsFlat ":".toList := by simp [isBreak]
  have blank : IsFlat " ".toList := by simp [isBreak]
  simp only [Moment.text, String.toList_append, isFlat_append, isFlat_padded, m.date.isFlat_text, colon, blank,
    and_self, true_and]
  constructor
  · split
    · simp
    · rw [String.toList_append, isFlat_append]
      exact ⟨by simp [isBreak], isFlat_padded _ _⟩
  · split
    · simp
    · simp only [String.toList_append, isFlat_append, isFlat_padded, colon, and_true]
      split <;> simp [isBreak]

theorem isFlat_durationShown (minutes : Int) : IsFlat (durationShown minutes).toList := by
  have days : IsFlat "days=".toList := by simp [isBreak]
  have seconds : IsFlat "seconds=".toList := by simp [isBreak]
  unfold durationShown
  simp only [String.toList_append, isFlat_append]
  refine ⟨⟨by simp [isBreak], isFlat_joinWith (by simp [isBreak]) fun part member => ?_⟩, by simp [isBreak]⟩
  rcases List.mem_append.1 member with first | second
  · split at first
    · cases first
    · rw [List.mem_singleton.1 first, String.toList_append, isFlat_append]
      exact ⟨days, isFlat_toString_int _⟩
  · split at second
    · cases second
    · rw [List.mem_singleton.1 second, String.toList_append, isFlat_append]
      exact ⟨seconds, isFlat_toString_int _⟩

theorem isFlat_offsetShown (minutes : Int) : IsFlat (offsetShown minutes).toList := by
  rw [offsetShown]
  split
  · simp [isBreak]
  · simp only [String.toList_append, isFlat_append, isFlat_durationShown]
    simp [isBreak]

theorem isFlat_of_mem_numbers {ns : List Nat} {s : String} (member : s ∈ ns.map toString) : IsFlat s.toList := by
  obtain ⟨n, -, rfl⟩ := List.mem_map.1 member
  exact isFlat_toString_nat n

theorem Date.isFlat_shown (d : Date) : IsFlat d.shown.toList := by
  have fields : IsFlat (joinWith ", " ([d.year, d.month, d.day].map toString)).toList :=
    isFlat_joinWith (by simp [isBreak]) fun s member => isFlat_of_mem_numbers member
  simp only [Date.shown, String.toList_append, isFlat_append, fields]
  simp [isBreak]

theorem Moment.isFlat_shown (m : Moment) : IsFlat m.shown.toList := by
  unfold Moment.shown
  simp only [String.toList_append, isFlat_append]
  refine ⟨⟨by simp [isBreak], isFlat_joinWith (by simp [isBreak]) fun s member => ?_⟩, by simp [isBreak]⟩
  rcases List.mem_append.1 member with number | zone
  · exact isFlat_of_mem_numbers number
  · split at zone
    · cases zone
    · rw [List.mem_singleton.1 zone, String.toList_append, isFlat_append]
      exact ⟨by simp [isBreak], isFlat_offsetShown _⟩

/-! ## Scalars and forms -/

namespace Scalar

/-- The text in a scalar. -/
def strings : Scalar → List String
  | .text s => [s]
  | _ => []

theorem isFlat_asText {s : Scalar} (flat : AreFlat s.strings) : IsFlat s.asText.toList := by
  cases s with
  | null => simp [asText, isBreak]
  | bool b => cases b <;> simp [asText, isBreak]
  | integer n => exact isFlat_toString_int n
  | number x => exact Numeral.isFlat_text Numeral.isFlat_messageStyle x
  | text s => exact flat s (List.mem_singleton.2 rfl)
  | binary bs => exact isFlat_quotedBytes bs
  | date d => exact d.isFlat_text
  | moment m => exact m.isFlat_text

theorem isFlat_shown (s : Scalar) : IsFlat s.shown.toList := by
  cases s with
  | text s => exact isFlat_quoted s
  | date d => exact d.isFlat_shown
  | moment m => exact m.isFlat_shown
  | null => exact isFlat_asText (s := .null) areFlat_nil
  | bool b => exact isFlat_asText (s := .bool b) areFlat_nil
  | integer n => exact isFlat_toString_int n
  | number x => exact Numeral.isFlat_text Numeral.isFlat_messageStyle x
  | binary bs => exact isFlat_quotedBytes bs

end Scalar

namespace Form

mutual

/-- The names of fields at any depth. -/
def names : Form → List String
  | .scalar _ => []
  | .tuple items => namesIn items
  | .record _ fields => fieldNames fields

def namesIn : List Form → List String
  | [] => []
  | f :: fs => f.names ++ namesIn fs

def fieldNames : List (String × Form) → List String
  | [] => []
  | (name, f) :: fs => name :: (f.names ++ fieldNames fs)

end

mutual

/-- The texts that stand anywhere but in documentation. -/
def texts : Form → List String
  | .scalar s => s.strings
  | .tuple items => textsIn items
  | .record _ fields => fieldTexts fields

def textsIn : List Form → List String
  | [] => []
  | f :: fs => f.texts ++ textsIn fs

def fieldTexts : List (String × Form) → List String
  | [] => []
  | (name, f) :: fs => (if name = "doc" then [] else f.texts) ++ fieldTexts fs

end

def strings (f : Form) : List String := f.names ++ f.texts

theorem isFlat_shownTuple {ss : List String} (flat : AreFlat ss) : IsFlat (shownTuple ss).toList := by
  unfold shownTuple
  split
  · simp [isBreak]
  · next s =>
    simp only [String.toList_append, isFlat_append, flat s List.mem_cons_self]
    simp [isBreak]
  · have joined : IsFlat (joinWith ", " ss).toList := isFlat_joinWith (by simp [isBreak]) flat
    simp only [String.toList_append, isFlat_append, joined]
    simp [isBreak]

theorem isFlat_label (sort : FormSort) : IsFlat sort.label.toList := by
  cases sort <;> simp [FormSort.label, isBreak]

mutual

/-- A form is shown on one line whatever texts it has, since they are quoted. -/
theorem isFlat_shown : ∀ f : Form, AreFlat f.names → IsFlat f.shown.toList
  | .scalar s, _ => by
    rw [shown]
    exact s.isFlat_shown
  | .tuple items, flat => by
    rw [names] at flat
    rw [shown]
    exact isFlat_shownTuple (areFlat_shownItems items flat)
  | .record sort fields, flat => by
    rw [names] at flat
    have inner : IsFlat (joinWith ", " (shownFields fields)).toList :=
      isFlat_joinWith (by simp [isBreak]) (areFlat_shownFields fields flat)
    simp only [shown, String.toList_append, isFlat_append, isFlat_label, inner]
    simp [isBreak]

theorem areFlat_shownItems : ∀ fs : List Form, AreFlat (namesIn fs) → AreFlat (shownItems fs)
  | [], _ => by simp [shownItems]
  | f :: fs, flat => by
    rw [namesIn, areFlat_append] at flat
    rw [shownItems, areFlat_cons]
    exact ⟨isFlat_shown f flat.1, areFlat_shownItems fs flat.2⟩

theorem areFlat_shownFields : ∀ fs : List (String × Form), AreFlat (fieldNames fs) → AreFlat (shownFields fs)
  | [], _ => by simp [shownFields]
  | (name, f) :: fs, flat => by
    rw [fieldNames, areFlat_cons, areFlat_append] at flat
    obtain ⟨own, value, others⟩ := flat
    rw [shownFields, areFlat_cons]
    refine ⟨?_, areFlat_shownFields fs others⟩
    simp only [String.toList_append, isFlat_append, own, isFlat_shown f value]
    simp [isBreak]

end

theorem isFlat_asText {f : Form} (flat : AreFlat f.strings) : IsFlat f.asText.toList := by
  rw [strings, areFlat_append] at flat
  obtain ⟨names, texts⟩ := flat
  cases f with
  | scalar s => exact Scalar.isFlat_asText texts
  | tuple items => exact isFlat_shown _ names
  | record sort fields => exact isFlat_shown _ names

theorem isFlat_kindName (f : Form) : IsFlat f.kindName.toList := by
  cases f with
  | scalar s =>
    rw [kindName]
    cases s <;> simp [Document.kindName, isBreak]
  | tuple items => simp [kindName, isBreak]
  | record sort fields => exact isFlat_label sort

theorem areFlat_of_lookup {fields : List (String × Form)} {name : String} {f : Form} (other : name ≠ "doc")
    (found : fields.lookup name = some f) (names : AreFlat (fieldNames fields)) (texts : AreFlat (fieldTexts fields)) :
    AreFlat f.strings := by
  induction fields with
  | nil => cases found
  | cons e fields ih =>
    obtain ⟨n, g⟩ := e
    rw [fieldNames, areFlat_cons, areFlat_append] at names
    rw [fieldTexts, areFlat_append] at texts
    rw [List.lookup_cons] at found
    split at found
    · next same =>
      cases found
      rw [← eq_of_beq same, if_neg other] at texts
      exact areFlat_append.2 ⟨names.2.1, texts.1⟩
    · exact ih found names.2.2 texts.2

/-- The kind is a field of its own, next to any documentation. -/
theorem areFlat_kind {f kind : Form} (flat : AreFlat f.strings) (found : f.field? "kind" = some kind) :
    AreFlat kind.strings := by
  cases f with
  | scalar s => cases found
  | tuple items => cases found
  | record sort fields =>
    obtain ⟨names, texts⟩ := areFlat_append.1 flat
    exact areFlat_of_lookup (by decide) found names texts

/-- A form with flat texts has a flat name among supertypes. -/
theorem isFlat_formName {f : Form} (flat : AreFlat f.strings) : IsFlat f.formName.toList := by
  unfold formName
  split
  · simp [isBreak]
  · simp [isBreak]
  · simp [isBreak]
  · simp [isBreak]
  · next found => exact isFlat_asText (areFlat_kind flat found)
  · next found => exact isFlat_asText (areFlat_kind flat found)
  · next kind found => exact isFlat_lower (isFlat_asText (areFlat_kind flat found))
  · exact isFlat_lower (isFlat_kindName _)

end Form

end ProgramFacts
