import FieldRules.Eval.Basic
import FieldRules.Proofs.Number.IntegerPart
import FieldRules.Proofs.Outcome

/-!
# Integers in formatted text

The verbs `d` and `x` show the integer part of a finite number in decimal and in
hexadecimal digits.  What they show is the word of 64 bits nearest to the integer part,
so it is the integer part itself exactly if that is a word.
-/

namespace FieldRules

open Number

namespace Format

/-- The text of an integer in hexadecimal digits of lower case, behind a minus sign if it
is negative. -/
def hexText (n : ℤ) : String :=
  (if n < 0 then "-" else "") ++ String.ofList (Nat.toDigits 16 n.natAbs)

theorem ofList_decimalInt (n : ℤ) : String.ofList (decimalInt n) = toString n := by
  rw [← String.toList_inj, String.toList_ofList, decimalInt, decimalDigits]
  cases n with
  | ofNat n =>
      have notNegative : ¬Int.ofNat n < 0 := Int.not_lt.mpr (Int.natCast_nonneg n)
      have text : (toString (Int.ofNat n)).toList = Nat.toDigits 10 n := Nat.toList_repr
      rw [text, decide_eq_false notNegative]
      rfl
  | negSucc n =>
      have negative : Int.negSucc n < 0 := Int.negSucc_lt_zero n
      have text : toString (Int.negSucc n) = "-" ++ (n + 1).repr := rfl
      rw [text, String.toList_append, Nat.toList_repr, decide_eq_true negative]
      rfl

theorem ofList_hexInt (n : ℤ) : String.ofList (hexInt n) = hexText n := by
  rw [← String.toList_inj, String.toList_ofList, hexInt, hexText, String.toList_append,
    String.toList_ofList, Text.hexDigits]
  by_cases negative : n < 0
  · rw [decide_eq_true negative, if_pos negative]
    rfl
  · rw [decide_eq_false negative, if_neg negative]
    rfl

variable {x : Float} {q : ℚ}

theorem verbText_decimal (value : rational? x = some q) :
    (verbText 'd' none (.number x)).map String.ofList =
      .ok (toString (clampWord (integerPart q))) := by
  have shown : verbText 'd' none (.number x) =
      if x.isFinite then .ok (decimalInt (toWord x)) else .ok (badVerb 'd' (.number x)) := rfl
  rw [shown, if_pos (exists_rational?_iff.mp ⟨q, value⟩), toWord_eq_clampWord value]
  exact congrArg Except.ok (ofList_decimalInt _)

theorem verbText_hexadecimal (value : rational? x = some q) :
    (verbText 'x' none (.number x)).map String.ofList =
      .ok (hexText (clampWord (integerPart q))) := by
  have shown : verbText 'x' none (.number x) =
      if x.isFinite then .ok (hexInt (toWord x)) else .ok (badVerb 'x' (.number x)) := rfl
  rw [shown, if_pos (exists_rational?_iff.mp ⟨q, value⟩), toWord_eq_clampWord value]
  exact congrArg Except.ok (ofList_hexInt _)

/-- A directive that is its verb alone shows its argument as it is. -/
theorem sprintf_verb {verb : Char} (noFlag : Directive.start.read verb = none)
    (other : verb ≠ '%') (argument : Datum) :
    sprintf (.ofList ['%', verb]) [argument] = (verbText verb none argument).map String.ofList := by
  have parts : segments ['%', verb] = [.directive .start verb] := by
    have read : segments ['%', verb] = segmentsFrom (some .start) [verb] := rfl
    rw [read, segmentsFrom, noFlag]
    rfl
  have given : admitted Directive.start.precision = none := rfl
  rw [sprintf, format, String.toList_ofList, parts, renderSegments, if_neg other,
    Directive.render, given]
  cases verbText verb none argument with
  | error fault => rfl
  | ok text => simp [renderSegments, Directive.marks, Directive.start, admitted, fill, Except.map]

end Format

open Format

variable [RegexLibrary]

/-- A call of `sprintf` with one argument shows the datum of the argument. -/
theorem eval_sprintf {scope : Scope} {element : Element} {argument : Node} {datum : Datum}
    (evaluated : argument.eval scope element = .ok datum) (format : String) :
    (Node.call false .sprintf [.text format, argument]).eval scope element =
      (sprintf format [datum]).map .text := by
  simp only [Node.eval, Node.evalCall, Node.evalAll, evaluated, bind_ok]
  cases sprintf format [datum] <;> rfl

/-- The verbs `d` and `x` show of any finite number the word nearest to its integer part,
in decimal and in hexadecimal digits, and this word is the integer part exactly if that
lies between the least word and the greatest. -/
theorem integer_verbs_show_integer_part {scope : Scope} {element : Element} {argument : Node}
    {x : Float} {q : ℚ} (evaluated : argument.eval scope element = .ok (.number x))
    (value : rational? x = some q) :
    (Node.call false .sprintf [.text "%d", argument]).eval scope element =
        .ok (.text (toString (clampWord (integerPart q)))) ∧
      (Node.call false .sprintf [.text "%x", argument]).eval scope element =
        .ok (.text (hexText (clampWord (integerPart q)))) ∧
      (clampWord (integerPart q) = integerPart q ↔
        minWord ≤ integerPart q ∧ integerPart q ≤ maxWord) := by
  have decimal : sprintf "%d" [.number x] = .ok (toString (clampWord (integerPart q))) :=
    (sprintf_verb (by decide) (by decide) (.number x)).trans (verbText_decimal value)
  have hexadecimal : sprintf "%x" [.number x] = .ok (hexText (clampWord (integerPart q))) :=
    (sprintf_verb (by decide) (by decide) (.number x)).trans (verbText_hexadecimal value)
  rw [eval_sprintf evaluated, eval_sprintf evaluated, decimal, hexadecimal]
  exact ⟨rfl, rfl, clampWord_eq_self_iff⟩

end FieldRules

namespace FieldRules

open Number

attribute [local instance] RegexLibrary.empty

/-- The least word is shown with all its digits. -/
theorem least_word_shown :
    rational? (ofInt minWord) = some (minWord : ℚ) ∧
      (Node.call false .sprintf [.text "%d", .current]).eval
          (.ofCurrent (.number (ofInt minWord))) none = .ok (.text "-9223372036854775808") ∧
      (Node.call false .sprintf [.text "%x", .current]).eval
          (.ofCurrent (.number (ofInt minWord))) none = .ok (.text "-8000000000000000") := by
  have value : rational? (ofInt minWord) = some (minWord : ℚ) :=
    rational?_ofInt ⟨1, 63, by decide, by decide, by decide⟩
  have evaluated : Node.current.eval (.ofCurrent (.number (ofInt minWord))) none =
      .ok (.number (ofInt minWord)) := rfl
  rcases integer_verbs_show_integer_part evaluated value with ⟨decimal, hexadecimal, kept⟩
  rw [integerPart_intCast] at decimal hexadecimal
  exact ⟨value, decimal, hexadecimal⟩

/-- The greatest unsigned word is `2 ^ 64` as a double, and the greatest signed word in
formatted text. -/
theorem greatest_unsigned_word_shown :
    rational? (ofInt 18446744073709551615) = some ((18446744073709551616 : ℤ) : ℚ) ∧
      (Node.call false .sprintf [.text "%d", .current]).eval
          (.ofCurrent (.number (ofInt 18446744073709551615))) none =
        .ok (.text "9223372036854775807") ∧
      (Node.call false .sprintf [.text "%x", .current]).eval
          (.ofCurrent (.number (ofInt 18446744073709551615))) none =
        .ok (.text "7fffffffffffffff") := by
  have rounded : ofInt 18446744073709551615 = ofInt 18446744073709551616 := rfl
  rw [rounded]
  exact ⟨rational?_ofInt ⟨1, 64, by decide, by decide, by decide⟩, rfl, rfl⟩

end FieldRules
