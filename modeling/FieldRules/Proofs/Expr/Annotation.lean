import FieldRules.Expr.Annotation
import FieldRules.Proofs.Outcome
import Mathlib.Data.List.Nodup

/-!
# What annotations hold

Every annotation that is read holds numbered expressions under different names,
and the names are words.
-/

namespace FieldRules

open FieldRules.Text

variable [RegexLibrary]

/-- An expression whose slots number its paths, with a word as its name if it has
one. -/
structure NamedExpression.WellFormed (named : NamedExpression) : Prop where
  numbered : ∃ source tree, named.expression = .ofTree source tree
  word : ∀ name ∈ named.name, isWord name.toList = true

namespace Annotation

/-- Well-formed expressions with different names. -/
structure WellFormed (blocks : Annotation) : Prop where
  each : ∀ named ∈ blocks, named.WellFormed
  distinct : (blocks.map NamedExpression.name).Nodup

theorem WellFormed.nil : WellFormed [] where
  each := List.forall_mem_nil _
  distinct := .nil

theorem WellFormed.concat {blocks : Annotation} (wellFormed : blocks.WellFormed)
    {named : NamedExpression} (next : named.WellFormed)
    (fresh : ∀ earlier ∈ blocks, earlier.name ≠ named.name) :
    WellFormed (blocks ++ [named]) where
  each := List.forall_mem_append.mpr ⟨wellFormed.each, List.forall_mem_singleton.mpr next⟩
  distinct := by
    rw [List.map_append, List.nodup_append]
    refine ⟨wellFormed.distinct, List.nodup_singleton _, fun name mem other last => ?_⟩
    obtain ⟨earlier, inAnnotation, rfl⟩ := List.mem_map.mp mem
    obtain rfl : other = named.name := by simpa using last
    exact fresh earlier inAnnotation

variable {registry : Registry}

theorem numbered_of_ofText {source : String} {expression : Expression}
    (read : Expression.ofText registry source = .ok expression) :
    ∃ source tree, expression = .ofTree source tree := by
  obtain ⟨tree, -, rfl⟩ := map_eq_ok_iff.mp read
  exact ⟨source, tree, rfl⟩

omit [RegexLibrary] in
theorem word_of_readName {text : List Char} {name : Option String}
    (read : readName text = some name) : ∀ word ∈ name, isWord word.toList = true := by
  rw [readName] at read
  split_ifs at read with isDefault valid
  · cases read
    rintro word ⟨⟩
  · cases read
    rintro word ⟨⟩
    rwa [String.toList_ofList]

theorem wellFormed_of_readBlock {block : List Char} {named : NamedExpression}
    (read : readBlock registry block = .ok named) : named.WellFormed := by
  rw [readBlock] at read
  split at read
  · cases read
  · split at read
    · cases read
    · rename_i name nameRead
      obtain ⟨expression, expressionRead, same⟩ := bind_eq_ok_iff.mp read
      cases same
      exact ⟨numbered_of_ofText expressionRead, word_of_readName nameRead⟩

theorem wellFormed_of_readBlocks {steps : Nat} {earlier blocks : Annotation}
    {text : List Char} (wellFormed : earlier.WellFormed)
    (read : readBlocks registry steps earlier text = .ok blocks) : blocks.WellFormed := by
  induction steps generalizing earlier text with
  | zero =>
      cases read
      exact wellFormed
  | succ steps ih =>
      rw [readBlocks] at read
      split at read
      · cases read
        exact wellFormed
      · split_ifs at read
        split at read
        · cases read
        · obtain ⟨named, namedRead, read⟩ := bind_eq_ok_iff.mp read
          split_ifs at read with taken
          refine ih (wellFormed.concat (wellFormed_of_readBlock namedRead) ?_) read
          simpa using taken

/-- An annotation that does not start with a brace is its default expression. -/
theorem ofText_default {source : String} {c : Char} {rest : List Char}
    (shown : skipLayout source.toList = c :: rest) (noBrace : c ≠ '{') :
    ofText registry source =
      (Expression.ofText registry (.ofList (trimEnd (c :: rest)))).map fun expression =>
        [⟨none, expression⟩] := by
  rw [ofText, shown]
  split
  · contradiction
  · simp_all
  · rfl

/-- Annotations that are read are well-formed. -/
theorem wellFormed_of_ofText {source : String} {blocks : Annotation}
    (read : ofText registry source = .ok blocks) : blocks.WellFormed := by
  rw [ofText] at read
  split at read
  · cases read
    exact .nil
  · exact wellFormed_of_readBlocks .nil read
  · obtain ⟨expression, expressionRead, same⟩ := bind_eq_ok_iff.mp read
    cases same
    have single : NamedExpression.WellFormed ⟨none, expression⟩ :=
      ⟨numbered_of_ofText expressionRead, by rintro word ⟨⟩⟩
    exact WellFormed.nil.concat single (List.forall_mem_nil _)

end Annotation

end FieldRules
