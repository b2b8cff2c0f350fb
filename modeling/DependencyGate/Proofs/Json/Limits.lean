/-
# Texts within the limits of the JSON reader

The reader gives up on an integer with too many digits and on values that lie within too
many others, whether or not the text is well formed. Both can be told from the characters
of a text alone (`staysWithin`): how deep brackets open outside of strings, and how long
the runs of digits there are. On a text that stays within the limits the reader finds a
value or a fault, never a limit (`exists_malformed_of_parse`).

The reader is followed step by step: whatever it reads of a text that stays within the
limits, what it leaves stays within them (`Leaves`).
-/

import DependencyGate.Json.Reader
import DependencyGate.Text.Line
import Mathlib.Data.List.TakeWhile

namespace DependencyGate.Json

/-! ## Staying within limits -/

/-- Where a character of a JSON text stands: outside of strings, in a string, or behind a
backslash in a string. -/
inductive Place
  | outside
  | inString
  | escaped
deriving DecidableEq

/-- Whether a text, from a place on, opens at most `depth` more brackets outside of strings
than it closes, and goes on there with at most `digits` digits and then with no run of
digits that an integer may not have. -/
def staysWithin : Place → (depth digits : Nat) → Text → Bool
  | _, _, _, [] => true
  | .inString, depth, _, c :: rest =>
      staysWithin (if c = '"' then .outside else if c = '\\' then .escaped else .inString) depth
        integerDigitLimit rest
  | .escaped, depth, _, _ :: rest => staysWithin .inString depth integerDigitLimit rest
  | .outside, depth, digits, c :: rest =>
      if c.isDigit then digits != 0 && staysWithin .outside depth (digits - 1) rest
      else if c = '[' ∨ c = '{' then
        depth != 0 && staysWithin .outside (depth - 1) integerDigitLimit rest
      else if c = ']' ∨ c = '}' then staysWithin .outside (depth + 1) integerDigitLimit rest
      else staysWithin (if c = '"' then .inString else .outside) depth integerDigitLimit rest

/-- Whether a text that starts outside of strings stays within the limits, with room for so
many brackets. -/
def Fits (depth : Nat) (text : Text) : Prop :=
  staysWithin .outside depth integerDigitLimit text = true

instance (depth : Nat) (text : Text) : Decidable (Fits depth text) :=
  inferInstanceAs (Decidable (_ = true))

/-- Whether a character opens or closes neither a bracket nor a string. -/
def IsQuiet (c : Char) : Prop := c ≠ '[' ∧ c ≠ '{' ∧ c ≠ ']' ∧ c ≠ '}' ∧ c ≠ '"'

instance (c : Char) : Decidable (IsQuiet c) := inferInstanceAs (Decidable (_ ∧ _))

section Fits

variable {place : Place} {depth digits more : Nat} {text rest : Text} {c : Char}

/-- More digits may be left. -/
theorem staysWithin_mono (le : digits ≤ more) (stays : staysWithin place depth digits text = true) :
    staysWithin place depth more text = true := by
  induction text generalizing place digits more with
  | nil => cases place <;> rfl
  | cons c rest ih =>
      cases place with
      | inString => exact stays
      | escaped => exact stays
      | outside =>
          rw [staysWithin] at stays ⊢
          by_cases digit : c.isDigit = true
          · rw [if_pos digit, Bool.and_eq_true, bne_iff_ne] at stays ⊢
            exact ⟨by omega, ih (Nat.sub_le_sub_right le 1) stays.2⟩
          · rwa [if_neg digit] at stays ⊢

theorem fits_nil : Fits depth [] := rfl

theorem Fits.of_quiet (quiet : IsQuiet c) (fits : Fits depth (c :: rest)) : Fits depth rest := by
  rw [Fits, staysWithin] at fits
  rw [Fits]
  split at fits
  case isTrue =>
    rw [Bool.and_eq_true] at fits
    exact staysWithin_mono (Nat.sub_le _ 1) fits.2
  case isFalse =>
    obtain ⟨bracket, brace, closing, closingBrace, quote⟩ := quiet
    simpa [bracket, brace, closing, closingBrace, quote] using fits

theorem Fits.drop {count : Nat} (quiet : ∀ c ∈ text.take count, IsQuiet c)
    (fits : Fits depth text) : Fits depth (text.drop count) := by
  induction count generalizing text with
  | zero => exact fits
  | succ count ih =>
      cases text with
      | nil => exact fits_nil
      | cons c rest =>
          rw [List.take_succ_cons, List.forall_mem_cons] at quiet
          exact ih quiet.2 (fits.of_quiet quiet.1)

theorem Fits.skipSpace (fits : Fits depth text) (offset : Nat) :
    Fits depth (skipSpace offset text).rest := by
  rw [Json.skipSpace]
  induction text with
  | nil => exact fits_nil
  | cons c rest ih =>
      rw [List.dropWhile_cons]
      split
      case isTrue space =>
        have quiet : IsQuiet c := by
          refine ⟨?_, ?_, ?_, ?_, ?_⟩ <;> rintro rfl <;> exact absurd space (by decide)
        exact ih (fits.of_quiet quiet)
      case isFalse => exact fits

theorem exists_of_fits_open (opens : c = '[' ∨ c = '{') (fits : Fits depth (c :: rest)) :
    ∃ inner, depth = inner + 1 ∧ Fits inner rest := by
  have notDigit : c.isDigit = false := by rcases opens with rfl | rfl <;> rfl
  rw [Fits, staysWithin, notDigit, if_neg (by simp), if_pos opens] at fits
  rw [Bool.and_eq_true, bne_iff_ne] at fits
  exact ⟨depth - 1, by omega, fits.2⟩

theorem Fits.of_close (closes : c = ']' ∨ c = '}') (fits : Fits depth (c :: rest)) :
    Fits (depth + 1) rest := by
  rcases closes with rfl | rfl <;> exact fits

theorem staysWithin_of_fits_quote (fits : Fits depth ('"' :: rest)) :
    staysWithin .inString depth integerDigitLimit rest = true := fits

/-- A text that fits starts with no more digits than an integer may have. -/
theorem length_digits_le (stays : staysWithin .outside depth digits text = true) :
    (text.takeWhile Char.isDigit).length ≤ digits := by
  induction text generalizing digits with
  | nil => simp
  | cons c rest ih =>
      rw [List.takeWhile_cons]
      split
      case isFalse => simp
      case isTrue digit =>
        rw [staysWithin, if_pos digit, Bool.and_eq_true, bne_iff_ne] at stays
        have shorter := ih stays.2
        rw [List.length_cons]
        omega

/-- Unifying line endings changes nothing of this. -/
theorem staysWithin_unifyLineEndings (place : Place) (depth digits : Nat) (text : Text) :
    staysWithin place depth digits text.unifyLineEndings =
      staysWithin place depth digits text := by
  fun_induction Text.unifyLineEndings text generalizing place depth digits with
  | case1 => rfl
  | case2 rest ih =>
      cases place with
      | outside => exact ih .outside depth integerDigitLimit
      | inString => exact ih .inString depth integerDigitLimit
      | escaped => exact ih .inString depth integerDigitLimit
  | case3 c rest _ ih =>
      by_cases isReturn : c = '\r'
      · subst isReturn
        cases place with
        | outside => exact ih .outside depth integerDigitLimit
        | inString => exact ih .inString depth integerDigitLimit
        | escaped => exact ih .inString depth integerDigitLimit
      · rw [if_neg isReturn]
        cases place <;> simp only [staysWithin, ih]

end Fits

/-! ## What a reading leaves -/

/-- What is said of a reading: it ends in a fault, or what it leaves fits. -/
structure Leaves {α : Type} (depth : Nat) (result : Except Error (Reading α)) : Prop where
  fits : ∀ read, result = .ok read → Fits depth read.rest
  malformed : ∀ error, result = .error error → ∃ fault offset, error = .malformed fault offset

section Leaves

variable {α : Type} {depth : Nat} {text rest : Text}

theorem leaves_ok {read : Reading α} (fits : Fits depth read.rest) :
    Leaves depth (.ok read : Except Error (Reading α)) :=
  ⟨fun _ equal => Except.ok.inj equal ▸ fits, fun _ equal => nomatch equal⟩

theorem leaves_malformed (fault : SyntaxFault) (offset : Nat) :
    Leaves depth (.error (.malformed fault offset) : Except Error (Reading α)) :=
  ⟨fun _ equal => (nomatch equal), fun _ equal => ⟨fault, offset, (Except.error.inj equal).symm⟩⟩

/-- A fault that one reading finds is found by another that needs it. -/
theorem Leaves.of_error {β : Type} {result : Except Error (Reading β)} {error : Error}
    {behind : Nat} (leaves : Leaves behind result) (failed : result = .error error) :
    Leaves depth (.error error : Except Error (Reading α)) := by
  obtain ⟨fault, offset, rfl⟩ := leaves.malformed error failed
  exact leaves_malformed fault offset

/-! ## Numbers -/

theorem isQuiet_of_isDigit {c : Char} (digit : c.isDigit = true) : IsQuiet c := by
  refine ⟨?_, ?_, ?_, ?_, ?_⟩ <;> rintro rfl <;> exact absurd digit (by decide)

theorem isDigit_of_mem_take_digits {c : Char}
    (listed : c ∈ text.take (text.takeWhile Char.isDigit).length) : c.isDigit = true := by
  rw [← List.prefix_iff_eq_take.mp (List.takeWhile_prefix _)] at listed
  exact List.mem_takeWhile_imp listed

theorem isDigit_of_mem_take_integerLength {c : Char} (listed : c ∈ text.take (integerLength text)) :
    c.isDigit = true := by
  rw [integerLength.eq_def] at listed
  split at listed
  case h_1 =>
    obtain rfl : c = '0' := by simpa using listed
    rfl
  case h_2 => exact isDigit_of_mem_take_digits listed

theorem isQuiet_of_mem_take_fractionLength {c : Char}
    (listed : c ∈ text.take (fractionLength text)) : IsQuiet c := by
  rw [fractionLength.eq_def] at listed
  split at listed
  case h_1 rest =>
    split at listed
    case h_1 => simp at listed
    case h_2 digits found =>
      rw [List.take_succ_cons, List.mem_cons, ← Nat.succ_eq_add_one, ← found] at listed
      rcases listed with rfl | digit
      · decide
      · exact isQuiet_of_isDigit (isDigit_of_mem_take_digits digit)
  case h_2 => simp at listed

theorem isQuiet_of_mem_take_sign {c : Char}
    (listed : c ∈ text.take (if text.head? = some '+' ∨ text.head? = some '-' then 1 else 0)) :
    IsQuiet c := by
  split at listed
  case isFalse => simp at listed
  case isTrue signed =>
    rcases signed with plus | minus
    · obtain ⟨rest, rfl⟩ := List.head?_eq_some_iff.mp plus
      obtain rfl : c = '+' := by simpa using listed
      decide
    · obtain ⟨rest, rfl⟩ := List.head?_eq_some_iff.mp minus
      obtain rfl : c = '-' := by simpa using listed
      decide

theorem isQuiet_of_mem_take_exponentLength {c : Char}
    (listed : c ∈ text.take (exponentLength text)) : IsQuiet c := by
  rw [exponentLength.eq_def] at listed
  split at listed
  case h_2 => simp at listed
  case h_1 letter rest =>
    split at listed
    case isFalse => simp at listed
    case isTrue isLetter =>
      have signed := @isQuiet_of_mem_take_sign rest c
      simp only [Bool.or_eq_true, decide_eq_true_eq] at isLetter listed
      generalize (if rest.head? = some '+' ∨ rest.head? = some '-' then 1 else 0) = sign
        at signed listed
      split at listed
      case h_1 => simp at listed
      case h_2 digits found =>
        rw [List.take_succ_cons, List.mem_cons, Nat.add_assoc, List.take_add, List.mem_append,
          ← Nat.succ_eq_add_one, ← found] at listed
        rcases listed with rfl | sign | digit
        · rcases isLetter with rfl | rfl <;> decide
        · exact signed sign
        · exact isQuiet_of_isDigit (isDigit_of_mem_take_digits digit)

/-- A number that fits has no more digits than an integer may have. -/
theorem integerLength_le (fits : Fits depth text) : integerLength text ≤ integerDigitLimit := by
  rw [integerLength.eq_def]
  split
  case h_1 => decide
  case h_2 => exact length_digits_le fits

theorem leaves_readNumber (fits : Fits depth text) (offset : Nat) :
    Leaves depth (readNumber offset text) := by
  rw [readNumber]
  have signed : ∀ c ∈ text.take (if text.head? = some '-' then 1 else 0), IsQuiet c := by
    intro c listed
    split at listed
    case isTrue minus =>
      obtain ⟨rest, rfl⟩ := List.head?_eq_some_iff.mp minus
      obtain rfl : c = '-' := by simpa using listed
      decide
    case isFalse => simp at listed
  generalize (if text.head? = some '-' then 1 else 0) = sign at signed ⊢
  have unsigned := fits.drop signed
  dsimp only
  split
  case isTrue => exact leaves_malformed _ _
  case isFalse =>
    have short := integerLength_le unsigned
    split
    case isTrue long => exact absurd long.2 (by omega)
    case isFalse =>
      apply leaves_ok
      have afterDigits := unsigned.drop fun c listed =>
        isQuiet_of_isDigit (isDigit_of_mem_take_integerLength listed)
      have afterFraction := afterDigits.drop fun c listed =>
        isQuiet_of_mem_take_fractionLength listed
      have afterExponent := afterFraction.drop fun c listed =>
        isQuiet_of_mem_take_exponentLength listed
      simpa only [List.drop_drop] using afterExponent

/-! ## Strings and words -/

/-- Whether the rest of a string fits. -/
def FitsInString (depth : Nat) (text : Text) : Prop :=
  staysWithin .inString depth integerDigitLimit text = true

theorem FitsInString.of_plain {c : Char} (quote : c ≠ '"') (backslash : c ≠ '\\')
    (fits : FitsInString depth (c :: rest)) : FitsInString depth rest := by
  rw [FitsInString, staysWithin, if_neg quote, if_neg backslash] at fits
  exact fits

theorem plain_of_hexDigit? {c : Char} {value : Nat} (hex : hexDigit? c = some value) :
    c ≠ '"' ∧ c ≠ '\\' := by
  have quote : hexDigit? '"' = none := by decide
  have backslash : hexDigit? '\\' = none := by decide
  constructor <;> rintro rfl
  · simp [quote] at hex
  · simp [backslash] at hex

/-- Four hexadecimal digits are passed over in a string, and something follows them. -/
theorem FitsInString.drop_fourDigits {value : Nat} (four : fourDigits? text = some value)
    (fits : FitsInString depth text) : FitsInString depth (text.drop 4) := by
  rw [fourDigits?.eq_def] at four
  split at four
  case h_1 a b c d e rest =>
    split at four
    case h_1 first second third fourth =>
      have pa := plain_of_hexDigit? first
      have pb := plain_of_hexDigit? second
      have pc := plain_of_hexDigit? third
      have pd := plain_of_hexDigit? fourth
      exact (((fits.of_plain pa.1 pa.2).of_plain pb.1 pb.2).of_plain pc.1 pc.2).of_plain pd.1 pd.2
    case h_2 => simp at four
  case h_2 => simp at four

/-- Two escapes that stand right behind one another are passed over in a string. -/
theorem FitsInString.drop_pair {digits more : Text} {high low : Nat}
    (fits : FitsInString depth digits) (four : fourDigits? digits = some high)
    (second : digits.drop 4 = '\\' :: 'u' :: more) (fourMore : fourDigits? more = some low) :
    FitsInString depth (List.drop 11 ('u' :: digits)) := by
  have behind := fits.drop_fourDigits four
  rw [second] at behind
  have inside : FitsInString depth more := behind
  have dropped : List.drop 11 ('u' :: digits) = more.drop 4 := by
    rw [List.drop_succ_cons, show 10 = 4 + 6 from rfl, ← List.drop_drop, second]
    rfl
  rw [dropped]
  exact inside.drop_fourDigits fourMore

/-- Behind a backslash, an escape leaves the rest of the string. -/
theorem fitsInString_of_readEscape {opening offset taken : Nat} {point : CodePoint}
    (fits : staysWithin .escaped depth integerDigitLimit text = true)
    (escape : readEscape opening offset text = .ok (point, taken)) :
    FitsInString depth (text.drop taken) := by
  rw [readEscape.eq_def] at escape
  split at escape
  case h_1 => simp at escape
  case h_2 digits =>
    split at escape
    case h_1 => simp at escape
    case h_2 high four =>
      have inside : FitsInString depth digits := fits
      have single := inside.drop_fourDigits four
      have alone (equal : (Except.ok (CodePoint.ofNat high, 5) : Except Error (CodePoint × Nat)) =
          .ok (point, taken)) : FitsInString depth (List.drop taken ('u' :: digits)) := by
        obtain ⟨rfl, rfl⟩ := Prod.mk.inj (Except.ok.inj equal)
        exact single
      split at escape
      case isFalse => exact alone escape
      case isTrue =>
        split at escape
        case h_2 => exact alone escape
        case h_1 more second =>
          split at escape
          case isTrue => exact alone escape
          case isFalse =>
            split at escape
            case h_1 => simp at escape
            case h_2 low fourMore =>
              split at escape
              case isFalse => exact alone escape
              case isTrue =>
                obtain ⟨rfl, rfl⟩ := Prod.mk.inj (Except.ok.inj escape)
                exact inside.drop_pair four second fourMore
  case h_3 c rest _ =>
    split at escape
    case h_1 plain found =>
      obtain ⟨rfl, rfl⟩ := Prod.mk.inj (Except.ok.inj escape)
      exact fits
    case h_2 => simp at escape

theorem exists_malformed_of_readEscape {opening offset : Nat} {error : Error}
    (failed : readEscape opening offset text = .error error) :
    ∃ fault offset, error = .malformed fault offset := by
  rw [readEscape.eq_def] at failed
  repeat' split at failed
  all_goals simp at failed
  all_goals exact ⟨_, _, failed.symm⟩

theorem leaves_readString (fits : FitsInString depth text) (opening offset : Nat) :
    Leaves depth (readString opening offset text) := by
  fun_induction readString opening offset text with
  | case1 => exact leaves_malformed _ _
  | case2 => exact leaves_ok fits
  | case3 offset rest error refused =>
      obtain ⟨fault, place, rfl⟩ := exists_malformed_of_readEscape refused
      exact leaves_malformed fault place
  | case4 offset rest point taken escape error failed _ ih =>
      exact (ih (fitsInString_of_readEscape fits escape)).of_error failed
  | case5 offset rest point taken escape read done _ ih =>
      have leaves := ih (fitsInString_of_readEscape fits escape)
      exact leaves_ok (leaves.fits read done)
  | case6 => exact leaves_malformed _ _
  | case7 offset c rest quote backslash _ error failed ih =>
      exact (ih (fits.of_plain quote backslash)).of_error failed
  | case8 offset c rest quote backslash _ read done ih =>
      have leaves := ih (fits.of_plain quote backslash)
      exact leaves_ok (leaves.fits read done)

theorem isQuiet_of_mem_valueWords : ∀ entry ∈ valueWords, ∀ c ∈ entry.1, IsQuiet c := by
  have quiet : (valueWords.all fun entry => entry.1.all fun c => decide (IsQuiet c)) = true := by
    decide
  simpa only [List.all_eq_true, decide_eq_true_eq] using quiet

theorem leaves_readScalar (fits : Fits depth text) (offset : Nat) :
    Leaves depth (readScalar offset text) := by
  rw [readScalar.eq_def]
  split
  case h_1 rest =>
    have leaves := leaves_readString (staysWithin_of_fits_quote fits) offset (offset + 1)
    split
    case h_1 error failed => exact leaves.of_error failed
    case h_2 read done => exact leaves_ok (leaves.fits read done)
  case h_2 =>
    split
    case h_1 word value found =>
      have listed := List.mem_of_find?_eq_some found
      have starts : word <+: text := by simpa using List.find?_some found
      apply leaves_ok
      apply fits.drop
      rw [← List.prefix_iff_eq_take.mp starts]
      exact isQuiet_of_mem_valueWords _ listed
    case h_2 => exact leaves_readNumber fits offset

end Leaves

/-! ## Values -/

/-- What is said of the readers of values, elements and members that may take so many steps.
Elements and members are read up to the closing bracket. -/
structure ReadersLeave (steps : Nat) : Prop where
  value : ∀ {depth text} (offset : Nat), Fits depth text →
    Leaves depth (readValue steps depth offset text)
  elements : ∀ {depth text} (offset : Nat), Fits depth text →
    Leaves (depth + 1) (readElements steps depth offset text)
  members : ∀ {depth text} (offset : Nat), Fits depth text →
    Leaves (depth + 1) (readMembers steps depth offset text)

section Readers

variable {steps depth : Nat} {text : Text}

theorem leaves_readValue_succ (readers : ReadersLeave steps) (offset : Nat)
    (fits : Fits depth text) : Leaves depth (readValue (steps + 1) depth offset text) := by
  rw [readValue.eq_def]
  dsimp only
  split
  case h_1 rest =>
    obtain ⟨inner, rfl, inside⟩ := exists_of_fits_open (.inl rfl) fits
    have start := inside.skipSpace (offset + 1)
    dsimp only
    split
    case h_1 after closing =>
      rw [closing] at start
      exact leaves_ok (start.of_close (.inl rfl))
    case h_2 =>
      have leaves := readers.elements (skipSpace (offset + 1) rest).offset start
      split
      case h_1 error failed => exact leaves.of_error failed
      case h_2 read done => exact leaves_ok (leaves.fits read done)
  case h_2 rest =>
    obtain ⟨inner, rfl, inside⟩ := exists_of_fits_open (.inr rfl) fits
    have start := inside.skipSpace (offset + 1)
    dsimp only
    split
    case h_1 after closing =>
      rw [closing] at start
      exact leaves_ok (start.of_close (.inr rfl))
    case h_2 =>
      have leaves := readers.members (skipSpace (offset + 1) rest).offset start
      split
      case h_1 error failed => exact leaves.of_error failed
      case h_2 read done => exact leaves_ok (leaves.fits read done)
  case h_3 => exact leaves_readScalar fits offset

theorem leaves_readElements_succ (readers : ReadersLeave steps) (offset : Nat)
    (fits : Fits depth text) : Leaves (depth + 1) (readElements (steps + 1) depth offset text) := by
  have element := readers.value offset fits
  rw [readElements.eq_def]
  dsimp only
  split
  case h_1 error failed => exact element.of_error failed
  case h_2 read done =>
    generalize behindEq : skipSpace read.offset read.rest = behind
    have behindFits := (element.fits read done).skipSpace read.offset
    rw [behindEq] at behindFits
    split
    case h_1 after closing =>
      rw [closing] at behindFits
      exact leaves_ok (behindFits.of_close (.inl rfl))
    case h_2 after comma =>
      rw [comma] at behindFits
      have next := (behindFits.of_quiet (by decide)).skipSpace (behind.offset + 1)
      have others := readers.elements (skipSpace (behind.offset + 1) after).offset next
      split
      case h_1 error failed => exact others.of_error failed
      case h_2 read done => exact leaves_ok (others.fits read done)
    case h_3 => exact leaves_malformed _ _

theorem leaves_readMembers_succ (readers : ReadersLeave steps) (offset : Nat)
    (fits : Fits depth text) : Leaves (depth + 1) (readMembers (steps + 1) depth offset text) := by
  rw [readMembers.eq_def]
  dsimp only
  split
  case h_2 => exact leaves_malformed _ _
  case h_1 rest =>
    have name := leaves_readString (staysWithin_of_fits_quote fits) offset (offset + 1)
    split
    case h_1 error failed => exact name.of_error failed
    case h_2 named found =>
      generalize colonEq : skipSpace named.offset named.rest = colon
      have colonFits := (name.fits named found).skipSpace named.offset
      rw [colonEq] at colonFits
      split
      case h_2 => exact leaves_malformed _ _
      case h_1 after isColon =>
        rw [isColon] at colonFits
        have start := (colonFits.of_quiet (by decide)).skipSpace (colon.offset + 1)
        have value := readers.value (skipSpace (colon.offset + 1) after).offset start
        split
        case h_1 error failed => exact value.of_error failed
        case h_2 read done =>
          generalize behindEq : skipSpace read.offset read.rest = behind
          have behindFits := (value.fits read done).skipSpace read.offset
          rw [behindEq] at behindFits
          split
          case h_1 after closing =>
            rw [closing] at behindFits
            exact leaves_ok (behindFits.of_close (.inr rfl))
          case h_2 after comma =>
            rw [comma] at behindFits
            have next := (behindFits.of_quiet (by decide)).skipSpace (behind.offset + 1)
            have others := readers.members (skipSpace (behind.offset + 1) after).offset next
            split
            case h_1 error failed => exact others.of_error failed
            case h_2 read done => exact leaves_ok (others.fits read done)
          case h_3 => exact leaves_malformed _ _

theorem readersLeave (steps : Nat) : ReadersLeave steps := by
  induction steps with
  | zero =>
      constructor
      · intro depth text offset _
        rw [readValue.eq_def]
        exact leaves_malformed _ _
      · intro depth text offset _
        rw [readElements.eq_def]
        exact leaves_malformed _ _
      · intro depth text offset _
        rw [readMembers.eq_def]
        exact leaves_malformed _ _
  | succ steps ih =>
      exact ⟨fun offset => leaves_readValue_succ ih offset,
        fun offset => leaves_readElements_succ ih offset,
        fun offset => leaves_readMembers_succ ih offset⟩

/-- On a text within the limits the reader finds a value or a fault. -/
theorem exists_malformed_of_parse {depth : Nat} {error : Error} (fits : Fits depth text)
    (failed : parse depth text = .error error) :
    ∃ fault offset, error = .malformed fault offset := by
  have leaves := (readersLeave (2 * text.length + 2)).value (skipSpace 0 text).offset
    (fits.skipSpace 0)
  rw [parse] at failed
  split at failed
  case isTrue => exact ⟨_, _, (Except.error.inj failed).symm⟩
  case isFalse =>
    dsimp only at failed
    split at failed
    case h_1 found refused =>
      obtain rfl := Except.error.inj failed
      exact leaves.malformed _ refused
    case h_2 =>
      split at failed
      case isTrue => simp at failed
      case isFalse => exact ⟨_, _, (Except.error.inj failed).symm⟩

end Readers

/-! ## Beyond the limits -/

section LongInteger

variable {text : Text} {c : Char}

theorem isSpace_eq_false_of_isDigit (digit : c.isDigit = true) : isSpace c = false := by
  rw [← Bool.not_eq_true]
  intro space
  simp only [isSpace, Bool.or_eq_true, decide_eq_true_eq] at space
  rcases space with ((rfl | rfl) | rfl) | rfl <;> exact absurd digit (by decide)

/-- No word that is a value starts with a digit. -/
theorem find?_valueWords_of_isDigit (digit : c.isDigit = true) (rest : Text) :
    valueWords.find? (fun entry => entry.1.isPrefixOf (c :: rest)) = none := by
  have starts : ∀ entry ∈ valueWords, entry.1.head?.map Char.isDigit = some false := by decide
  rw [List.find?_eq_none]
  intro entry listed starting
  have start := starts entry listed
  obtain ⟨first, spelled, notDigit⟩ := Option.map_eq_some_iff.mp start
  obtain ⟨more, spelling⟩ := List.head?_eq_some_iff.mp spelled
  rw [spelling, List.isPrefixOf_iff_prefix, List.cons_prefix_cons] at starting
  rw [starting.1, digit] at notDigit
  cases notDigit

/-- A number that consists of too many digits, the first of which is not zero, is refused
although it is well formed. -/
theorem readNumber_of_digits {first : Char} {digits : Text} (positive : first ≠ '0')
    (all : ∀ c ∈ first :: digits, c.isDigit = true)
    (long : integerDigitLimit < (first :: digits).length) (offset : Nat) :
    readNumber offset (first :: digits) = .error (.longInteger (first :: digits).length) := by
  have unsigned : first ≠ '-' := by
    rintro rfl
    exact absurd (all '-' List.mem_cons_self) (by decide)
  have whole : integerLength (first :: digits) = (first :: digits).length := by
    rw [integerLength.eq_def]
    split
    case h_1 equal => exact absurd (List.cons.inj equal).1 positive
    case h_2 => rw [List.takeWhile_eq_self_iff.mpr all]
  -- nothing follows the digits, neither a fraction nor an exponent
  have fraction : fractionLength [] = 0 := rfl
  have exponent : exponentLength [] = 0 := rfl
  rw [readNumber]
  simp only [List.head?_cons, Option.some.injEq, if_neg unsigned, List.drop_zero, whole,
    Nat.zero_add, List.drop_length, fraction, Nat.add_zero, exponent]
  rw [if_neg (by simp), if_pos ⟨trivial, long⟩]

theorem parse_of_digits {first : Char} {digits : Text} (depth : Nat) (positive : first ≠ '0')
    (all : ∀ c ∈ first :: digits, c.isDigit = true)
    (long : integerDigitLimit < (first :: digits).length) :
    parse depth (first :: digits) = .error (.longInteger (first :: digits).length) := by
  have digit := all first List.mem_cons_self
  have unmarked : first ≠ '\uFEFF' := by
    rintro rfl
    exact absurd digit (by decide)
  obtain ⟨bracket, brace, -, -, quote⟩ := isQuiet_of_isDigit digit
  have start : skipSpace 0 (first :: digits) = ⟨(), 0, first :: digits⟩ := by
    rw [skipSpace, List.takeWhile_cons, List.dropWhile_cons, isSpace_eq_false_of_isDigit digit]
    rfl
  have scalar (offset : Nat) :
      readScalar offset (first :: digits) = .error (.longInteger (first :: digits).length) := by
    rw [readScalar.eq_def]
    split
    case h_1 equal => exact absurd (List.cons.inj equal).1 quote
    case h_2 =>
      rw [find?_valueWords_of_isDigit digit]
      exact readNumber_of_digits positive all long offset
  rw [parse, List.head?_cons, if_neg (by simpa using unmarked), start]
  dsimp only
  rw [readValue.eq_def]
  simp [bracket, brace, scalar]

end LongInteger

section Nesting

theorem skipSpace_replicate_bracket (offset count : Nat) :
    skipSpace offset (List.replicate count '[') = ⟨(), offset, List.replicate count '['⟩ := by
  cases count <;> rfl

/-- One bracket more than may be opened is refused, whatever is opened behind it. -/
theorem readValue_of_brackets {steps depth : Nat} (enough : 2 * depth + 1 ≤ steps)
    (offset more : Nat) : readValue steps depth offset (List.replicate (depth + 1 + more) '[') =
      .error (.tooDeep .array) := by
  induction depth generalizing steps offset with
  | zero =>
      obtain ⟨steps, rfl⟩ : ∃ fewer, steps = fewer + 1 := ⟨steps - 1, by omega⟩
      rw [Nat.add_right_comm, List.replicate_succ, readValue.eq_def]
      rfl
  | succ depth ih =>
      obtain ⟨steps, rfl⟩ : ∃ fewer, steps = fewer + 2 := ⟨steps - 2, by omega⟩
      have inner := ih (show 2 * depth + 1 ≤ steps by omega) (offset + 1)
      rw [Nat.add_right_comm, List.replicate_succ, readValue.eq_def]
      simp only [skipSpace_replicate_bracket]
      rw [Nat.add_right_comm, List.replicate_succ] at inner ⊢
      simp only [readElements, inner]
      rfl

theorem parse_of_brackets {depth count : Nat} (deep : depth < count) :
    parse depth (List.replicate count '[') = .error (.tooDeep .array) := by
  obtain ⟨more, rfl⟩ : ∃ more, count = depth + 1 + more := ⟨count - (depth + 1), by omega⟩
  have unmarked : (List.replicate (depth + 1 + more) '[').head? ≠ some '\uFEFF' := by
    rw [Nat.add_right_comm, List.replicate_succ]
    simp
  have refused := readValue_of_brackets
    (show 2 * depth + 1 ≤ 2 * (List.replicate (depth + 1 + more) '[').length + 2 by
      rw [List.length_replicate]
      omega) 0 more
  rw [parse, if_neg unmarked, skipSpace_replicate_bracket]
  simp only [refused]

end Nesting

end DependencyGate.Json
