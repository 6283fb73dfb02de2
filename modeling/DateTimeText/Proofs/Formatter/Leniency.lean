import DateTimeText.Proofs.Formatter.Reading
import DateTimeText.Proofs.Node.Leniency

/-!
# Lenient formatters

A formatter of numbers and literals that is built in lenient mode reads what it reads in strict
mode, from every position, with the same values. Only a number of nineteen digits is apart: it gives
a digit back if it has more than 64 bits, and the number it is joined to then leaves one digit less.
-/

namespace DateTimeText

/-- A step that appends a number or a literal. -/
def BuildStep.IsNumeric : BuildStep → Prop
  | .value _ => True
  | .valueWith _ _ _ _ => True
  | .fixed _ _ => True
  | .reduced _ _ _ => True
  | .literal _ => True
  | _ => False

/-- A step for a literal that is empty, and appends nothing, or for a number or another literal. -/
theorem BuildStep.IsNumeric.eq_toStep {s : BuildStep} (h : s.IsNumeric) :
    s = .literal [] ∨ ∃ x : NumberStep, s = x.toStep := by
  cases s with
  | value f => exact .inr ⟨.value f, rfl⟩
  | valueWith f minWidth maxWidth sign => exact .inr ⟨.valueWith f minWidth maxWidth sign, rfl⟩
  | fixed f width => exact .inr ⟨.fixed f width, rfl⟩
  | reduced f width base => exact .inr ⟨.reduced f width base, rfl⟩
  | literal chars =>
      cases chars with
      | nil => exact .inl rfl
      | cons c cs => exact .inr ⟨.literal c cs, rfl⟩
  | _ => exact h.elim

namespace Builder

/-- A step for a number or a literal is refused by every builder or by none. -/
theorem step_toStep_uniform (x : NumberStep) :
    (∃ e, ∀ b : Builder, b.step x.toStep = .error e) ∨
      ∀ b : Builder, ∃ after, b.step x.toStep = .ok after := by
  cases x with
  | value f => exact .inr fun b => ⟨_, rfl⟩
  | literal c cs => exact .inr fun b => ⟨_, rfl⟩
  | fixed f width =>
      by_cases hwidth : width < 1 ∨ maxDigits < width
      · exact .inl ⟨_, fun b => if_pos hwidth⟩
      · exact .inr fun b => ⟨_, if_neg hwidth⟩
  | reduced f width base =>
      cases hn : Numeral.reduced f width base with
      | error e => exact .inl ⟨e, fun b => by rw [NumberStep.toStep, step, appendReduced, hn]; rfl⟩
      | ok n => exact .inr fun b => ⟨_, by rw [NumberStep.toStep, step, appendReduced, hn]; rfl⟩
  | valueWith f minWidth maxWidth sign =>
      simp only [NumberStep.toStep, step, appendValueWith, appendFixed]
      by_cases hfixed : minWidth = maxWidth ∧ sign = .notNegative
      · simp only [if_pos hfixed]
        by_cases hwidth : maxWidth < 1 ∨ maxDigits < maxWidth
        · exact .inl ⟨_, fun b => if_pos hwidth⟩
        · exact .inr fun b => ⟨_, if_neg hwidth⟩
      simp only [if_neg hfixed]
      by_cases hmin : minWidth < 1 ∨ maxDigits < minWidth
      · exact .inl ⟨_, fun b => if_pos hmin⟩
      simp only [if_neg hmin]
      by_cases hmax : maxWidth < 1 ∨ maxDigits < maxWidth
      · exact .inl ⟨_, fun b => if_pos hmax⟩
      simp only [if_neg hmax]
      by_cases horder : maxWidth < minWidth
      · exact .inl ⟨_, fun b => if_pos horder⟩
      · exact .inr fun b => ⟨_, if_neg horder⟩

/-- Steps for numbers and literals, of which some may be refused, put a row of valid parts into any
builder. -/
theorem performAll_numeric {list : List BuildStep} (hlist : ∀ s ∈ list, s.IsNumeric) :
    ∃ steps : List NumberStep,
      (∀ x ∈ steps, x.toStep ∈ list ∧ ∃ b after : Builder, b.step x.toStep = .ok after) ∧
      ∀ b : Builder, b.performAll list =
        b.mapActive fun sc => (steps.map NumberStep.part).foldl Scope.add sc := by
  induction list with
  | nil => exact ⟨[], nofun, fun _ => rfl⟩
  | cons s list ih =>
      rw [List.forall_mem_cons] at hlist
      obtain ⟨steps, hsteps, hall⟩ := ih hlist.2
      have hmem : ∀ x ∈ steps, x.toStep ∈ s :: list ∧
          ∃ b after : Builder, b.step x.toStep = .ok after := fun x hx =>
        ⟨List.mem_cons_of_mem s (hsteps x hx).1, (hsteps x hx).2⟩
      have hcons : ∀ b : Builder, b.performAll (s :: list) = (b.perform s).1.performAll list :=
        fun _ => rfl
      rcases hlist.1.eq_toStep with rfl | ⟨x, rfl⟩
      · exact ⟨steps, hmem, fun b => (hcons b).trans (hall b)⟩
      rcases step_toStep_uniform x with ⟨e, hrefused⟩ | haccepted
      · refine ⟨steps, hmem, fun b => ?_⟩
        rw [hcons, perform, hrefused b]
        exact hall b
      · have hx : x.toStep ∈ x.toStep :: list ∧ ∃ b after : Builder, b.step x.toStep = .ok after :=
          ⟨List.mem_cons_self, .new, haccepted .new⟩
        refine ⟨x :: steps, List.forall_mem_cons.2 ⟨hx, hmem⟩, fun b => ?_⟩
        obtain ⟨after, hafter⟩ := haccepted b
        obtain ⟨-, rfl⟩ := step_toStep hafter
        rw [hcons, perform, hafter, hall]
        rfl

end Builder

/-- A number of nineteen digits that may have digits left to it comes from a step that appends a
number of a fixed width. -/
theorem NumberStep.narrow_part {x : NumberStep} {b after : Builder}
    (h : b.step x.toStep = .ok after) (hfixed : ∀ f, x.toStep ≠ .fixed f 19)
    (hwith : ∀ f, x.toStep ≠ .valueWith f 19 19 .notNegative) : x.part.Narrow := by
  have hmax : maxDigits = 19 := rfl
  cases x with
  | value f => exact fun _ => show 1 < maxDigits by decide
  | literal c cs => trivial
  | fixed f width =>
      have hwidth := (Builder.appendFixed_eq_ok h).1
      have hne : width ≠ 19 := fun he => hfixed f (he ▸ rfl)
      exact fun _ => show width < maxDigits by omega
  | reduced f width base =>
      have hwidth := (Builder.appendReduced_eq_ok h).1
      exact fun _ => show width < maxDigits by omega
  | valueWith f minWidth maxWidth sign =>
      have hsized := (Builder.appendValueWith_eq_ok h).1.wellSized
      have hle : minWidth ≤ maxWidth := hsized.minWidth_le_maxWidth
      have hmaxWidth : maxWidth ≤ maxDigits := hsized.maxWidth_le
      intro hplace
      change minWidth < maxDigits
      by_cases hlt : minWidth < maxWidth
      · omega
      · have hsign : sign = .notNegative := by
          refine Decidable.byContradiction fun hne => hplace ?_
          rw [if_neg hlt, if_neg hne]
        have hne : ¬ (minWidth = 19 ∧ maxWidth = 19) := by
          rintro ⟨rfl, rfl⟩
          exact hwith f (hsign ▸ rfl)
        omega

namespace Formatter

theorem parseStart_eq_readAllWith (f : Formatter) (text : List Char) :
    f.parseStart text =
      (Node.readAllWith (Node.readTo f.settings 0) f.settings f.nodes .initial .empty text).2 := by
  rw [parseStart_eq_read]
  rfl

/-- What one formatter reads from the start of every text, another reads from every position. -/
theorem parseAt_mono {f g : Formatter} {text : List Char} {position after : ParsePosition}
    {v : Components}
    (hfg : ∀ start v rest, f.parseStart start = .ok (v, rest) → g.parseStart start = .ok (v, rest))
    (h : f.parseAt text position = (some v, after)) :
    g.parseAt text position = (some v, after) := by
  unfold parseAt at h ⊢
  cases hstart : dropBytes? position.index text with
  | none =>
      rw [hstart] at h
      cases h
  | some start =>
      rw [hstart] at h
      dsimp only at h ⊢
      rcases hread : f.parseStart start with stop | ⟨w, rest⟩
      · rw [hread] at h
        cases h
      · rw [hread] at h
        rw [hfg start w rest hread]
        exact h

/-- A formatter of numbers and literals that reads a text in strict mode reads it alike in lenient
mode, unless it has nineteen digits of a number of fixed width. -/
theorem parseAt_lenient {list : List BuildStep} (hlist : ∀ s ∈ list, s.IsNumeric)
    (hfixed : ∀ f, .fixed f 19 ∉ list) (hwith : ∀ f, .valueWith f 19 19 .notNegative ∉ list)
    {st : Settings} {text : List Char} {position after : ParsePosition} {v : Components}
    (h : parseAt ⟨(Builder.new.performAll list).nodes, st⟩ text position = (some v, after)) :
    parseAt ⟨(Builder.new.performAll (.mode .lenient :: list)).nodes, st⟩ text position =
      (some v, after) := by
  obtain ⟨steps, hsteps, hall⟩ := Builder.performAll_numeric hlist
  have hvalid : ∀ part ∈ steps.map NumberStep.part, part.Valid := by
    refine List.forall_mem_map.2 fun x hx => ?_
    obtain ⟨b, after, hstep⟩ := (hsteps x hx).2
    exact (Builder.step_toStep hstep).1
  have hnarrow : ∀ part ∈ steps.map NumberStep.part, part.Narrow := by
    refine List.forall_mem_map.2 fun x hx => ?_
    obtain ⟨hmem, b, after, hstep⟩ := hsteps x hx
    exact NumberStep.narrow_part hstep (fun f he => hfixed f (he ▸ hmem))
      fun f he => hwith f (he ▸ hmem)
  generalize steps.map NumberStep.part = parts at hvalid hnarrow hall
  have hstrict : (Builder.new.performAll list).nodes = (RowPart.leaves false parts).map .leaf := by
    rw [hall]
    exact (Scope.nodes_foldl_add parts).1 .empty rfl rfl
  have hlenient : (Builder.new.performAll (.mode .lenient :: list)).nodes =
      .mode .lenient :: (RowPart.leaves false parts).map .leaf := by
    change ((Builder.new.append (.mode .lenient)).performAll list).nodes = _
    rw [hall]
    exact (Scope.nodes_foldl_add parts).1 (Scope.empty.push (.mode .lenient)) rfl rfl
  rw [hstrict] at h
  rw [hlenient]
  refine parseAt_mono (fun start v rest hstart => ?_) h
  rw [parseStart_eq_readAllWith] at hstart ⊢
  obtain ⟨after, hread⟩ : ∃ after, Node.readAllWith (Node.readTo st 0) st
      ((RowPart.leaves false parts).map .leaf) .initial .empty start = (after, .ok (v, rest)) :=
    ⟨_, Prod.ext rfl hstart⟩
  have hall := RowPart.readAllWith_lenient hvalid hnarrow rfl hread
  rw [Node.readAllWith, Node.readWith]
  exact congrArg Prod.snd hall

/-- The sign, the year of five digits and the digit of the hour are read alike in both modes. -/
theorem parseAt_lenient_signed_year :
    let list : List BuildStep := [
      .literal ['@'], .valueWith .year 4 10 .exceedsPad, .fixed .monthOfYear 20, .literal [],
      .fixed .monthOfYear 2, .reduced .dayOfMonth 2 1, .literal ['T'], .value .hourOfDay]
    let text := ['@', '@', '+', '1', '2', '0', '1', '1', '0', '6', '3', '0', 'T', '7', 'h']
    let v := (((Components.empty.set .year 12011).set .monthOfYear 6).set .dayOfMonth 30).set
      .hourOfDay 7
    ((∀ s ∈ list, s.IsNumeric) ∧ (∀ f, .fixed f 19 ∉ list) ∧
        (∀ f, .valueWith f 19 19 .notNegative ∉ list) ∧
        parseAt ⟨(Builder.new.performAll list).nodes, .root⟩ text ⟨1, none⟩ =
          (some v, ⟨14, none⟩)) ∧
      parseAt ⟨(Builder.new.performAll (.mode .lenient :: list)).nodes, .root⟩ text ⟨1, none⟩ =
        (some v, ⟨14, none⟩) :=
  ⟨⟨by simp [BuildStep.IsNumeric], by simp, by simp, rfl⟩,
    parseAt_lenient (by simp [BuildStep.IsNumeric]) (by simp) (by simp) rfl⟩

/-- The number of nineteen digits takes eighteen in strict mode, and the year keeps its two. In
lenient mode the year has one digit less, and the other is the first of nineteen that do fit. -/
theorem nineteen_digits_shift_year :
    let list : List BuildStep := [
      .valueWith .year 2 4 .normal, .valueWith .instantSeconds 19 19 .notNegative,
      .fixed .monthOfYear 2]
    let text := '1' :: '2' :: (List.replicate 19 '9' ++ ['1'])
    (∀ s ∈ list, s.IsNumeric) ∧ (∀ f, .fixed f 19 ∉ list) ∧
      parseAt ⟨(Builder.new.performAll list).nodes, .root⟩ text ⟨0, none⟩ =
        (some (((Components.empty.set .year 12).set .instantSeconds 999999999999999999).set
          .monthOfYear 91), ⟨22, none⟩) ∧
      parseAt ⟨(Builder.new.performAll (.mode .lenient :: list)).nodes, .root⟩ text ⟨0, none⟩ =
        (some (((Components.empty.set .year 1).set .instantSeconds 2999999999999999999).set
          .monthOfYear 91), ⟨22, none⟩) :=
  ⟨by simp [BuildStep.IsNumeric], by simp, rfl, rfl⟩

end Formatter

end DateTimeText
