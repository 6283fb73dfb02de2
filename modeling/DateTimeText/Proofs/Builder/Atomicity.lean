import DateTimeText.Builder.Draft

/-!
# Calls that fail change nothing

A call on a draft does what a step of builders does. If the step is refused, the call fails with the
same cause, and the draft is what it was. Of a row of calls this cannot be said, since those in front
of the one that fails have made their changes; so a pattern owes it to the copy that it is put on.
-/

namespace DateTimeText

namespace Draft

/-- An edit does what a step of builders does, whatever it leaves where it fails. -/
structure Follows (edit : Edit Unit) (step : Builder → Except ConfigurationError Builder) :
    Prop where
  ok {b after : Builder} (h : step b = .ok after) : edit.run b.draft = .ok () after.draft
  error {b : Builder} {e : ConfigurationError} (h : step b = .error e) :
    ∃ d, edit.run b.draft = .error (.configuration e) d

/-- An edit does what a step of builders does, and changes nothing where it fails. -/
structure Performs (edit : Edit Unit) (step : Builder → Except ConfigurationError Builder) :
    Prop where
  ok {b after : Builder} (h : step b = .ok after) : edit.run b.draft = .ok () after.draft
  error {b : Builder} {e : ConfigurationError} (h : step b = .error e) :
    edit.run b.draft = .error (.configuration e) b.draft

section

variable {α β : Type} {first : Edit α} {next : α → Edit β} {d between : Draft}

theorem run_bind_of_ok {a : α} (h : first.run d = .ok a between) :
    (first >>= next).run d = (next a).run between := by
  change EStateM.bind first next d = _
  rw [EStateM.run] at h
  rw [EStateM.bind, h]
  rfl

theorem run_bind_of_error {e : FormatError} (h : first.run d = .error e between) :
    (first >>= next).run d = .error e between := by
  change EStateM.bind first next d = _
  rw [EStateM.run] at h
  rw [EStateM.bind, h]

theorem run_tryCatch_of_ok {handler : FormatError → Edit α} {a : α}
    (h : first.run d = .ok a between) : (tryCatch first handler).run d = .ok a between := by
  change EStateM.tryCatch first handler d = _
  rw [EStateM.run] at h
  delta EStateM.tryCatch
  dsimp only
  rw [h]

/-- What an edit changed before it failed is still changed when its error is handled. -/
theorem run_tryCatch_of_error {handler : FormatError → Edit α} {e : FormatError}
    (h : first.run d = .error e between) :
    (tryCatch first handler).run d = (handler e).run between := by
  change EStateM.tryCatch first handler d = _
  rw [EStateM.run] at h
  delta EStateM.tryCatch
  dsimp only
  rw [h]
  rfl

end

variable {edit edit' : Edit Unit} {step step' : Builder → Except ConfigurationError Builder}

theorem Performs.follows (h : Performs edit step) : Follows edit step :=
  ⟨h.ok, fun {b} {_} he => ⟨b.draft, h.error he⟩⟩

theorem performs_of_run {f : Builder → Builder}
    (h : ∀ b : Builder, edit.run b.draft = .ok () (f b).draft) : Performs edit fun b => .ok (f b) := by
  refine ⟨?_, nofun⟩
  rintro b after ⟨⟩
  exact h b

theorem performs_refuse (e : ConfigurationError) : Performs (refuse e) fun _ => .error e := by
  refine ⟨nofun, ?_⟩
  rintro b e' ⟨⟩
  rfl

theorem Performs.ite {p : Prop} [Decidable p] (h : Performs edit step) (h' : Performs edit' step') :
    Performs (if p then edit else edit') fun b => if p then step b else step' b := by
  split
  · exact h
  · exact h'

theorem Performs.check_bind {α : Type} (r : Except ConfigurationError α) {edits : α → Edit Unit}
    {steps : α → Builder → Except ConfigurationError Builder}
    (h : ∀ a, Performs (edits a) (steps a)) :
    Performs (check r >>= edits) fun b => r >>= fun a => steps a b := by
  cases r with
  | ok a => exact h a
  | error e => exact performs_refuse e

/-! ### Rows of edits -/

theorem Follows.forM {α : Type} {edits : α → Edit Unit}
    {steps : Builder → α → Except ConfigurationError Builder}
    (h : ∀ a, Follows (edits a) (steps · a)) (as : List α) :
    Follows (as.forM edits) fun b => as.foldlM steps b := by
  -- Each edit of the row starts on what the one before left.
  induction as with
  | nil => exact (performs_of_run fun _ => rfl).follows
  | cons a as ih =>
      constructor
      · intro b after hsteps
        rw [List.foldlM_cons] at hsteps
        cases hstep : steps b a with
        | ok between =>
            rw [hstep] at hsteps
            exact (run_bind_of_ok ((h a).ok hstep)).trans (ih.ok hsteps)
        | error e =>
            rw [hstep] at hsteps
            cases hsteps
      · intro b e hsteps
        rw [List.foldlM_cons] at hsteps
        cases hstep : steps b a with
        | ok between =>
            rw [hstep] at hsteps
            obtain ⟨d, hd⟩ := ih.error hsteps
            exact ⟨d, (run_bind_of_ok ((h a).ok hstep)).trans hd⟩
        | error e' =>
            rw [hstep] at hsteps
            cases hsteps
            obtain ⟨d, hd⟩ := (h a).error hstep
            exact ⟨d, run_bind_of_error hd⟩

theorem run_onCopy (edit : Edit Unit) (d : Draft) :
    (onCopy edit).run d =
      match edit.run d with
      | .ok _ copy => .ok () copy
      | .error e _ => .error e d := by
  have hrun : (onCopy edit).run d =
      EStateM.run (match edit.run d with
        | .ok _ copy => set copy
        | .error e _ => throw e : Edit Unit) d := rfl
  rw [hrun]
  split
  · rfl
  · rfl

/-- On a copy, also a row of edits changes nothing where it fails. -/
theorem Follows.onCopy (h : Follows edit step) : Performs (onCopy edit) step := by
  constructor
  · intro b after hstep
    rw [run_onCopy, h.ok hstep]
  · intro b e hstep
    obtain ⟨d, hd⟩ := h.error hstep
    rw [run_onCopy, hd]

/-! ### Calls that append a node -/

theorem performs_appendNode (node : Node) :
    Performs (appendNode node) fun b => .ok (b.append node) := by
  apply performs_of_run
  rintro ⟨⟨nodes, anchor, _ | ⟨width, fill⟩⟩, enclosing, texts⟩
  · rfl
  · rfl

theorem performs_appendAnchor (n : Numeral) :
    Performs (appendAnchor n) fun b => .ok (b.mapActive (·.pushAnchor n)) := by
  apply performs_of_run
  rintro ⟨⟨nodes, anchor, _ | ⟨width, fill⟩⟩, enclosing, texts⟩
  · rfl
  · rfl

theorem performs_appendJoined (width : Nat) (n : Numeral) :
    Performs (appendJoined width n) fun b => .ok (b.mapActive (·.pushFixed width n)) := by
  apply performs_of_run
  rintro ⟨sc, enclosing, texts⟩
  have hactive : active.run (Builder.draft ⟨sc, enclosing, texts⟩) =
      .ok sc (Builder.draft ⟨sc, enclosing, texts⟩) := rfl
  rw [appendJoined, run_bind_of_ok hactive, Builder.mapActive, Scope.pushFixed]
  rcases sc.anchor? with _ | ⟨place, base⟩
  · exact (performs_appendNode _).ok rfl
  · obtain ⟨nodes, anchor, _ | ⟨width, fill⟩⟩ := sc
    · rfl
    · rfl

theorem performs_appendFixed (f : Field) (width : Nat) :
    Performs (appendFixed f width) (·.appendFixed f width) :=
  (performs_refuse _).ite (performs_appendJoined width _)

theorem performs_appendValueWith (f : Field) (minWidth maxWidth : Nat) (sign : SignStyle) :
    Performs (appendValueWith f minWidth maxWidth sign)
      (·.appendValueWith f minWidth maxWidth sign) := by
  have hpush : Performs
      (if minWidth = maxWidth then appendNode (.numeral (.plain f minWidth maxWidth sign))
        else appendAnchor (.plain f minWidth maxWidth sign))
      fun b => .ok (if minWidth = maxWidth
        then b.append (.numeral (.plain f minWidth maxWidth sign))
        else b.mapActive (·.pushAnchor (.plain f minWidth maxWidth sign))) := by
    split
    · exact performs_appendNode _
    · exact performs_appendAnchor _
  refine (performs_appendFixed f maxWidth).ite ?_
  refine (performs_refuse _).ite ((performs_refuse _).ite ((performs_refuse _).ite ?_))
  exact hpush

theorem performs_appendReduced (f : Field) (width : Nat) (base : Int) :
    Performs (appendReduced f width base) (·.appendReduced f width base) :=
  Performs.check_bind (Numeral.reduced f width base) (performs_appendJoined width)

theorem performs_appendFraction (f : Field) (minWidth maxWidth : Nat) (decimalPoint : Bool) :
    Performs (appendFraction f minWidth maxWidth decimalPoint)
      (·.appendFraction f minWidth maxWidth decimalPoint) :=
  Performs.check_bind (Fraction.of f minWidth maxWidth decimalPoint) fun n =>
    performs_appendNode (.leaf (.fraction n))

theorem performs_appendText (f : Field) (style : TextStyle) :
    Performs (appendText f style) fun b => .ok (b.appendText f style) :=
  performs_of_run fun b => (performs_appendNode (.leaf (.text ⟨f, style, b.texts⟩))).ok rfl

theorem performs_appendLocalized (date time : Option FormatStyle) :
    Performs (appendLocalized date time) (·.appendLocalized date time) := by
  refine (performs_refuse _).ite (performs_of_run fun b => ?_)
  exact (performs_appendNode (.localized ⟨date, time, b.texts⟩)).ok rfl

theorem performs_appendLiteral (text : List Char) :
    Performs (appendLiteral text) fun b => .ok (b.appendLiteral text) := by
  unfold appendLiteral Builder.appendLiteral
  split
  · exact performs_of_run fun _ => rfl
  · exact performs_appendNode (.literal text)

/-! ### Pads and sections -/

theorem performs_padNext (width : Nat) (fill : Char) :
    Performs (padNext width fill) (·.padNext width fill) :=
  (performs_refuse _).ite (performs_of_run fun _ => rfl)

theorem performs_startOptional : Performs startOptional fun b => .ok b.startOptional :=
  performs_of_run fun _ => rfl

theorem run_closeOptional (sc outer : Scope) (rest : List Scope) (texts : TextSource) :
    closeOptional.run (Builder.draft ⟨sc, outer :: rest, texts⟩) =
      .ok () (Builder.draft ⟨sc.close outer, rest, texts⟩) := by
  have hrun : closeOptional.run (Builder.draft ⟨sc, outer :: rest, texts⟩) =
      EStateM.run (if sc.nodes.isEmpty then pure () else appendNode (.group sc.nodes true) : Edit Unit)
        (Builder.draft ⟨outer, rest, texts⟩) := rfl
  rw [hrun, Scope.close]
  split
  · rfl
  · exact (performs_appendNode (.group sc.nodes true)).ok rfl

theorem performs_endOptional : Performs endOptional (·.endOptional) := by
  constructor
  · rintro ⟨sc, _ | ⟨outer, rest⟩, texts⟩ after h
    · cases h
    · cases h
      exact run_closeOptional sc outer rest texts
  · rintro ⟨sc, _ | ⟨outer, rest⟩, texts⟩ e h
    · cases h
      rfl
    · cases h

theorem performs_closeAll : Performs closeAll fun b => .ok b.closeAll := by
  apply performs_of_run
  rintro ⟨sc, enclosing, texts⟩
  -- One pass closes the innermost section, and the one around it is the innermost of the rest.
  change (enclosing.forM fun _ => closeOptional).run _ = _
  induction enclosing generalizing sc with
  | nil => rfl
  | cons outer rest ih => exact (run_bind_of_ok (run_closeOptional sc outer rest texts)).trans (ih _)

/-! ### Patterns -/

theorem performs_appendYear (count : Nat) : Performs (appendYear count) (·.appendYear count) :=
  (performs_appendReduced .year 2 2000).ite <| .check_bind (Builder.letterWidth count) fun width =>
    performs_appendValueWith .year width maxDigits (if count ≤ 3 then .normal else .exceedsPad)

theorem performs_appendValue (f : Field) :
    Performs (appendValue f) fun b => .ok (b.appendValue f) :=
  performs_appendAnchor (.plain f 1 maxDigits .normal)

theorem performs_appendNumberOrText (letter : Char) (f : Field) (count : Nat) :
    Performs (appendNumberOrText letter f count) (·.appendNumberOrText letter f count) := by
  match count with
  | 0 => exact performs_refuse _
  | 1 => exact performs_appendValue f
  | 2 => exact performs_appendFixed f 2
  | 3 => exact performs_appendText f .short
  | 4 => exact performs_appendText f .full
  | 5 => exact performs_appendText f .narrow
  | _ + 6 => exact performs_refuse _

theorem performs_appendHalfDay (letter : Char) (f : Field) (count : Nat) :
    Performs (appendHalfDay letter f count) (·.appendHalfDay letter f count) := by
  refine (performs_appendText f .short).ite ((performs_appendText f .full).ite ?_)
  exact (performs_appendText f .narrow).ite (performs_refuse _)

theorem performs_appendField (letter : Char) (f : Field) (count : Nat) :
    Performs (appendField letter f count) (·.appendField letter f count) := by
  refine (performs_appendYear count).ite ((performs_appendNumberOrText letter f count).ite ?_)
  refine (performs_appendHalfDay letter f count).ite (Performs.ite ?fraction ?number)
  case fraction =>
    exact .check_bind (Builder.letterWidth count) fun width =>
      performs_appendFraction f width width false
  case number =>
    exact (performs_appendValue f).ite
      (.check_bind (Builder.letterWidth count) (performs_appendFixed f))

theorem performs_appendLetters (letter : Char) (count : Nat) :
    Performs (appendLetters letter count) (·.appendLetters letter count) := by
  unfold appendLetters Builder.appendLetters
  cases Field.ofLetter? letter with
  | some f => exact performs_appendField letter f count
  | none =>
      refine ((performs_refuse _).ite (performs_appendNode _)).ite ?_
      refine ((performs_refuse _).ite (performs_appendNode _)).ite ?_
      refine ((performs_refuse _).ite (performs_appendNode _)).ite (Performs.ite ?_ ?_)
      · cases Builder.offsetPattern? count with
        | none => exact performs_refuse _
        | some p => exact performs_appendNode _
      · exact performs_refuse _

theorem performs_applyItem (item : PatternItem) : Performs (applyItem item) (·.applyItem item) := by
  cases item with
  | letters letter count => exact performs_appendLetters letter count
  | pad width => exact performs_padNext width ' '
  | literal text => exact performs_appendLiteral text
  | optionalStart => exact performs_startOptional
  | optionalEnd =>
      constructor
      · intro b after h
        cases hend : b.endOptional with
        | ok between =>
            simp only [Builder.applyItem, hend] at h
            cases h
            exact run_tryCatch_of_ok (performs_endOptional.ok hend)
        | error e => simp only [Builder.applyItem, hend] at h; cases h
      · intro b e h
        cases hend : b.endOptional with
        | ok between => simp only [Builder.applyItem, hend] at h; cases h
        | error e' =>
            simp only [Builder.applyItem, hend] at h
            cases h
            exact run_tryCatch_of_error (performs_endOptional.error hend)

theorem performs_appendPattern (pattern : List Char) :
    Performs (appendPattern pattern) (·.appendPattern pattern) :=
  Performs.check_bind (PatternItem.parseAll pattern) fun items =>
    (Follows.forM (fun item => (performs_applyItem item).follows) items).onCopy

/-- Not on a copy, the items in front of the one that fails are left. -/
example (source : TextSource) :
    (left (([.letters 'y' 4, .optionalEnd].forM applyItem).run (withTexts source))).scopes.map
      (·.nodes.length) = [1] := rfl

/-! ### Calls -/

theorem performs_call (s : BuildStep) : Performs (call s) (·.step s) := by
  cases s with
  | mode change => exact performs_appendNode (.mode change)
  | value f => exact performs_appendValue f
  | fixed f width => exact performs_appendFixed f width
  | valueWith f minWidth maxWidth sign => exact performs_appendValueWith f minWidth maxWidth sign
  | reduced f width base => exact performs_appendReduced f width base
  | fraction f minWidth maxWidth decimalPoint =>
      exact performs_appendFraction f minWidth maxWidth decimalPoint
  | text f style => exact performs_appendText f style
  | lookup f table => exact performs_appendNode _
  | instant => exact performs_appendNode .instant
  | offset pattern zeroText => exact performs_appendNode _
  | zone query => exact performs_appendNode _
  | zoneText style => exact performs_appendNode _
  | chronology style => exact performs_appendNode _
  | localized date time => exact performs_appendLocalized date time
  | literal chars => exact performs_appendLiteral chars
  | group nodes optional => exact performs_appendNode (.group nodes optional)
  | pattern chars => exact performs_appendPattern chars
  | pad width fill => exact performs_padNext width fill
  | startOptional => exact performs_startOptional
  | endOptional => exact performs_endOptional
  | closeAll => exact performs_closeAll
  | texts source => exact performs_of_run fun _ => rfl

theorem callAll_draft (b : Builder) (calls : List BuildStep) :
    callAll b.draft calls = (b.performAll calls).draft := by
  induction calls generalizing b with
  | nil => rfl
  | cons s calls ih =>
      -- A call that fails leaves the draft of the builder that goes on without the step.
      have hleft : left ((call s).run b.draft) = (b.perform s).1.draft := by
        rw [Builder.perform]
        cases hstep : b.step s with
        | ok after => rw [(performs_call s).ok hstep, left]
        | error e => rw [(performs_call s).error hstep, left]
      change callAll (left ((call s).run b.draft)) calls = _
      rw [hleft]
      exact ih _

/-- Whatever calls were made on a draft before, failing ones among them, it is the draft of the
builder after the same steps. A call does what the step does, and if it fails, then with an error of
the configuration, and the draft is what it was. -/
theorem call_atomic (source : TextSource) (calls : List BuildStep) (s : BuildStep) :
    callAll (withTexts source) calls = ((Builder.withTexts source).performAll calls).draft ∧
      (match ((Builder.withTexts source).performAll calls).step s with
        | .ok after => (call s).run (callAll (withTexts source) calls) = .ok () after.draft
        | .error e =>
          (call s).run (callAll (withTexts source) calls) =
            .error (.configuration e) (callAll (withTexts source) calls)) ∧
      ∀ e after, (call s).run (callAll (withTexts source) calls) = .error e after →
        e.kind = .configuration ∧ after = callAll (withTexts source) calls := by
  have hdraft := callAll_draft (Builder.withTexts source) calls
  change callAll (withTexts source) calls = _ at hdraft
  rw [hdraft]
  generalize (Builder.withTexts source).performAll calls = b
  cases hstep : b.step s with
  | ok after =>
      have hrun := (performs_call s).ok hstep
      exact ⟨rfl, hrun, fun e d hfail => by cases hrun.symm.trans hfail⟩
  | error cause =>
      have hrun := (performs_call s).error hstep
      refine ⟨rfl, hrun, fun e d hfail => ?_⟩
      cases hrun.symm.trans hfail
      exact ⟨rfl, rfl⟩

end Draft

end DateTimeText
