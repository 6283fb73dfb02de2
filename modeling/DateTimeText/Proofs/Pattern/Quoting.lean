import DateTimeText.Proofs.Pattern.Concatenation

/-!
# Quoted literals

To quote a text is to double its apostrophes and to put one on either side of it. The splitting of
patterns takes that back, and what is shown of a literal node is a pattern for it. The text of one
apostrophe is shown as two, which is no quoted text but the other way of writing it.
-/

namespace DateTimeText

variable {text : List Char}

namespace PatternItem

theorem ofQuoted_of_ne_nil (h : text ≠ []) : ofQuoted text = literal text := by
  rw [ofQuoted, if_neg (by simpa using h)]

theorem parseAll_quoted (text : List Char) {rest : List Char} {items : List PatternItem}
    (hrest : parseAll rest = .ok items) (hends : rest.head? ≠ some '\'') :
    parseAll ('\'' :: (doubleQuotes text ++ '\'' :: rest)) = .ok (ofQuoted text :: items) := by
  rw [parseAll, parseFrom_quoted _ hends]
  rw [parseAll, parseFrom_ok_iff] at hrest
  rw [hrest]
  rfl

theorem parseAll_describeLiteral (h : text ≠ []) :
    parseAll (Leaf.describeLiteral text) = .ok [literal text] := by
  have hnil : parseAll [] = .ok [] := by rw [parseAll, parseFrom]
  by_cases hquote : text = ['\'']
  · rw [Leaf.describeLiteral, if_pos hquote, hquote]
    exact parseAll_quoted [] hnil (by simp)
  · rw [Leaf.describeLiteral, if_neg hquote, ← ofQuoted_of_ne_nil h]
    exact parseAll_quoted text hnil (by simp)

end PatternItem

namespace Builder

theorem appendLiteral_of_ne_nil (b : Builder) (h : text ≠ []) :
    b.appendLiteral text = b.append (.literal text) :=
  if_neg (by simpa using h)

theorem appendPattern_describeLiteral (b : Builder) (h : text ≠ []) :
    b.appendPattern (Leaf.describeLiteral text) = .ok (b.append (.literal text)) := by
  rw [appendPattern, PatternItem.parseAll_describeLiteral h, ← b.appendLiteral_of_ne_nil h]
  rfl

theorem nodes_appendLiteral (texts : TextSource) (h : text ≠ []) :
    ((withTexts texts).appendLiteral text).nodes = [.literal text] := by
  rw [appendLiteral_of_ne_nil _ h]
  rfl

end Builder

/-- A quoted text in front of a pattern is split off as the literal of the text, and nothing else
changes. What is shown of the literal node of a text is a pattern that appends that node to every
builder; and what is shown of a formatter of the node alone is a pattern for the formatter. -/
theorem Formatter.literal_quoting (h : text ≠ []) :
    (∀ rest items, PatternItem.parseAll rest = .ok items → rest.head? ≠ some '\'' →
      PatternItem.parseAll ('\'' :: (doubleQuotes text ++ '\'' :: rest)) =
        .ok (.literal text :: items)) ∧
    (∀ b : Builder, b.appendLiteral text = b.append (.literal text) ∧
      b.appendPattern (Node.literal text).describe = .ok (b.append (.literal text))) ∧
    (Builder.new.appendLiteral text).toFormatter.nodes = [.literal text] ∧
    Formatter.ofPattern (Builder.new.appendLiteral text).toFormatter.describe =
      .ok (Builder.new.appendLiteral text).toFormatter := by
  have hnodes : (Builder.new.appendLiteral text).toFormatter.nodes = [.literal text] :=
    Builder.nodes_appendLiteral English.texts h
  refine ⟨?items, ?node, hnodes, ?shown⟩
  case items =>
    intro rest items hrest hends
    rw [← PatternItem.ofQuoted_of_ne_nil h]
    exact PatternItem.parseAll_quoted text hrest hends
  case node =>
    intro b
    exact ⟨b.appendLiteral_of_ne_nil h, b.appendPattern_describeLiteral h⟩
  case shown =>
    have hdescribe : (Builder.new.appendLiteral text).toFormatter.describe =
        Leaf.describeLiteral text := by
      rw [describe, hnodes, Node.describeAll, Node.describeAll, List.append_nil]
      rfl
    rw [hdescribe, ofPattern, ofPatternWithLocale, Builder.appendPattern_describeLiteral _ h,
      Builder.appendLiteral_of_ne_nil _ h]
    rfl

/-- An apostrophe at the start of the text makes three with the opening quote. -/
theorem Formatter.literal_quoting_clock :
    "'o'clock".toList ≠ [] ∧
      PatternItem.parseAll "'''o''clock'yy".toList =
        .ok [.literal "'o'clock".toList, .letters 'y' 2] ∧
      (Node.literal "'o'clock".toList).describe = "'''o''clock'".toList ∧
      Builder.new.appendPattern (Node.literal "'o'clock".toList).describe =
        .ok (Builder.new.append (.literal "'o'clock".toList)) := by
  have hrest : PatternItem.parseAll "yy".toList = .ok [.letters 'y' 2] := by
    simp [PatternItem.parseAll, PatternItem.parseFrom, PatternItem.afterRun, PatternItem.runLength,
      Except.map]
  have hquoting := Formatter.literal_quoting (by decide : "'o'clock".toList ≠ [])
  exact ⟨by decide, hquoting.1 "yy".toList _ hrest (by decide), rfl, (hquoting.2.1 Builder.new).2⟩

end DateTimeText
