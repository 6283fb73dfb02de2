import DateTimeText.Proofs.Node.OffsetText

/-!
# The grammar of offsets

The name of a pattern tells which parts an offset has: one in upper case has to stand, one in lower
case is read if it stands, and colons stand in front of the parts behind the hours if the name has
them. Hours and minutes are read so. Seconds are read if they stand, wherever minutes have to: so a
pattern without seconds takes them from the text, and one with seconds in upper case does without
them.
-/

namespace DateTimeText

namespace OffsetPattern

/-- How the name of a pattern uses a part, by its letter in upper and in lower case. -/
def useOf (p : OffsetPattern) (upper lower : Char) : PartUse :=
  if upper ∈ p.name.toList then .mandatory
  else if lower ∈ p.name.toList then .optional else .absent

/-- What the name of a pattern has in front of each part behind the hours. -/
def separator (p : OffsetPattern) : List Char :=
  if ':' ∈ p.name.toList then [':'] else []

theorem useOf_minutes (p : OffsetPattern) : p.useOf 'M' 'm' = p.minutes := by
  cases p <;> rfl

theorem useOf_seconds (p : OffsetPattern) : p.useOf 'S' 's' = p.seconds := by
  cases p <;> rfl

theorem useOf_seconds_of_notMem (p : OffsetPattern)
    (hp : p ∉ [hoursMinutes, hoursColonMinutes, hoursMinutesSeconds, hoursColonMinutesSeconds])
    (hminutes : p.useOf 'M' 'm' = .mandatory) : p.useOf 'S' 's' = .optional := by
  rw [useOf_minutes] at hminutes
  rw [useOf_seconds]
  revert hp hminutes
  cases p <;> decide

theorem separator_eq_colon (p : OffsetPattern) : p.separator = OffsetForm.colon p := by
  cases p <;> rfl

end OffsetPattern

namespace OffsetForm

/-- A text that starts with a part of an offset. -/
def StartsPart (separator text : List Char) : Prop :=
  ∃ n < 60, ∃ rest, text = separator ++ (twoDigits n ++ rest)

/-- A part at the start of a text, with its number and the text behind it. -/
inductive ReadsPart (separator : List Char) : PartUse → List Char → Nat → List Char → Prop
  | written {use : PartUse} {text : List Char} {n : Nat} {rest : List Char} (huse : use ≠ .absent)
    (hn : n < 60) (htext : text = separator ++ (twoDigits n ++ rest)) :
    ReadsPart separator use text n rest
  | missing {text : List Char} (hmissing : ¬ StartsPart separator text) :
    ReadsPart separator .optional text 0 text
  | absent {text : List Char} : ReadsPart separator .absent text 0 text

/-- The parts of an offset at the start of a text, with their seconds and the text behind them. -/
inductive ReadsParts (separator : List Char) (minutes seconds : PartUse) :
    List Char → Nat → List Char → Prop
  | mk {text afterHours afterMinutes rest : List Char} {h m s : Nat} (hh : h < 60)
    (htext : text = twoDigits h ++ afterHours)
    (hm : ReadsPart separator minutes afterHours m afterMinutes)
    (hs : ReadsPart separator seconds afterMinutes s rest) :
    ReadsParts separator minutes seconds text (h * 3600 + m * 60 + s) rest

/-- An offset at the start of a text. -/
inductive ReadsSigned (separator : List Char) (minutes seconds : PartUse) :
    List Char → Int → List Char → Prop
  | positive {text rest : List Char} {n : Nat}
    (h : ReadsParts separator minutes seconds text n rest) :
    ReadsSigned separator minutes seconds ('+' :: text) n rest
  | negative {text rest : List Char} {n : Nat}
    (h : ReadsParts separator minutes seconds text n rest) :
    ReadsSigned separator minutes seconds ('-' :: text) (-n) rest

end OffsetForm

namespace OffsetPattern

open OffsetForm

/-- The offsets of a pattern, with parts as its name has them but for the use of the seconds. -/
def Reads (p : OffsetPattern) (seconds : PartUse) : List Char → Int → List Char → Prop :=
  ReadsSigned p.separator (p.useOf 'M' 'm') seconds

/-- A text with seconds that a pattern does not have, or without those that it has to have. -/
def Strays (p : OffsetPattern) (text : List Char) : Prop :=
  p.useOf 'M' 'm' = .mandatory ∧
    ∃ sign h m rest, h < 60 ∧ m < 60 ∧
      text = sign :: (twoDigits h ++ (p.separator ++ (twoDigits m ++ rest))) ∧
      (p.useOf 'S' 's' = .absent ∧ StartsPart p.separator rest ∨
        p.useOf 'S' 's' = .mandatory ∧ ¬ StartsPart p.separator rest)

end OffsetPattern

namespace OffsetForm

/-! ### Reading by the grammar -/

variable {p : OffsetPattern} {text rest : List Char} {n : Nat}

theorem digitChar_of_isDigit {c : Char} (h : c.isDigit = true) :
    c.toNat - 48 < 10 ∧ Nat.digitChar (c.toNat - 48) = c := by
  obtain ⟨hlow, hhigh⟩ := Char.isDigit_iff_toNat.1 h
  have h48 : '0'.toNat = 48 := rfl
  have h57 : '9'.toNat = 57 := rfl
  have hlt : c.toNat - 48 < 10 := by omega
  refine ⟨hlt, Char.toNat_inj.1 ?_⟩
  rw [Nat.toNat_digitChar_of_lt_ten hlt]
  omega

theorem readPair?_eq_some_iff :
    readPair? text = some (n, rest) ↔ n < 60 ∧ text = twoDigits n ++ rest := by
  constructor
  · intro h
    rcases text with _ | ⟨a, _ | ⟨b, text⟩⟩
    · cases h
    · cases h
    rw [readPair?] at h
    split at h
    · rename_i hdigits
      obtain ⟨ha, hb, hn⟩ := hdigits
      cases h
      obtain ⟨hatens, hachar⟩ := digitChar_of_isDigit ha
      obtain ⟨hbones, hbchar⟩ := digitChar_of_isDigit hb
      refine ⟨hn, ?_⟩
      have htens : (10 * (a.toNat - 48) + (b.toNat - 48)) / 10 % 10 = a.toNat - 48 := by omega
      have hones : (10 * (a.toNat - 48) + (b.toNat - 48)) % 10 = b.toNat - 48 := by omega
      rw [twoDigits, htens, hones, hachar, hbchar]
      rfl
    · cases h
  · rintro ⟨hn, rfl⟩
    exact readPair?_twoDigits hn rest

theorem readNext?_eq_some_iff :
    readNext? p.hasColons text = some (n, rest) ↔
      n < 60 ∧ text = colon p ++ (twoDigits n ++ rest) := by
  constructor
  · intro h
    rw [colon]
    cases hcolons : p.hasColons with
    | false =>
        rw [hcolons] at h
        exact readPair?_eq_some_iff.1 h
    | true =>
        rw [hcolons] at h
        unfold readNext? at h
        rw [if_pos rfl] at h
        split at h
        · obtain ⟨hn, rfl⟩ := readPair?_eq_some_iff.1 h
          exact ⟨hn, rfl⟩
        · cases h
  · rintro ⟨hn, rfl⟩
    exact readNext?_colon p hn rest

theorem readNext?_eq_none_iff :
    readNext? p.hasColons text = none ↔ ¬ StartsPart (colon p) text := by
  rw [Option.eq_none_iff_forall_ne_some]
  constructor
  · rintro h ⟨n, hn, rest, htext⟩
    exact h (n, rest) (readNext?_eq_some_iff.2 ⟨hn, htext⟩)
  · rintro h ⟨n, rest⟩ hread
    obtain ⟨hn, htext⟩ := readNext?_eq_some_iff.1 hread
    exact h ⟨n, hn, rest, htext⟩

theorem readPart?_eq_some_iff {use : PartUse} :
    readPart? use p.hasColons text = some (n, rest) ↔ ReadsPart (colon p) use text n rest := by
  cases use with
  | absent =>
      constructor
      · rintro ⟨⟩
        exact .absent
      · rintro (⟨huse, -, -⟩ | _ | _)
        · exact absurd rfl huse
        · rfl
  | mandatory =>
      rw [readPart?_mandatory, readNext?_eq_some_iff]
      constructor
      · rintro ⟨hn, htext⟩
        exact .written (by decide) hn htext
      · rintro (⟨-, hn, htext⟩ | _ | _)
        exact ⟨hn, htext⟩
  | optional =>
      rw [readPart?, Option.or_eq_some_iff, readNext?_eq_some_iff, readNext?_eq_none_iff]
      constructor
      · rintro (⟨hn, htext⟩ | ⟨hmissing, h⟩)
        · exact .written (by decide) hn htext
        · cases h
          exact .missing hmissing
      · rintro (⟨-, hn, htext⟩ | hmissing | _)
        · exact .inl ⟨hn, htext⟩
        · exact .inr ⟨hmissing, rfl⟩

theorem readParts?_eq_some_iff :
    readParts? p text = some (n, rest) ↔
      ReadsParts (colon p) p.minutes p.secondsRead text n rest := by
  simp only [readParts?, Option.bind_eq_bind, Option.bind_eq_some_iff, Prod.exists]
  constructor
  · rintro ⟨h, afterHours, hh, m, afterMinutes, hm, s, afterSeconds, hs, hresult⟩
    cases hresult
    obtain ⟨hlt, htext⟩ := readPair?_eq_some_iff.1 hh
    exact .mk hlt htext (readPart?_eq_some_iff.1 hm) (readPart?_eq_some_iff.1 hs)
  · rintro ⟨hh, htext, hm, hs⟩
    exact ⟨_, _, readPair?_eq_some_iff.2 ⟨hh, htext⟩, _, _, readPart?_eq_some_iff.2 hm, _, _,
      readPart?_eq_some_iff.2 hs, rfl⟩

/-- A text is read as an offset if the grammar has it, with seconds wherever minutes have to stand. -/
theorem readSigned?_eq_some_iff {total : Int} :
    readSigned? p text = some (total, rest) ↔ p.Reads p.secondsRead text total rest := by
  rw [OffsetPattern.Reads, OffsetPattern.separator_eq_colon, OffsetPattern.useOf_minutes]
  constructor
  · intro h
    unfold readSigned? at h
    split at h
    · obtain ⟨⟨n, after⟩, hparts, hresult⟩ := Option.map_eq_some_iff.1 h
      cases hresult
      exact .positive (readParts?_eq_some_iff.1 hparts)
    · obtain ⟨⟨n, after⟩, hparts, hresult⟩ := Option.map_eq_some_iff.1 h
      cases hresult
      exact .negative (readParts?_eq_some_iff.1 hparts)
    · cases h
  · rintro (hparts | hparts)
    · rw [readSigned?, readParts?_eq_some_iff.2 hparts]
      rfl
    · rw [readSigned?, readParts?_eq_some_iff.2 hparts]
      rfl

/-! ### The grammar has one offset for a text -/

section

variable {other : List Char} {k : Nat} {minutes seconds : PartUse}

theorem ReadsPart.unique {use : PartUse} (h : ReadsPart p.separator use text n rest)
    (h' : ReadsPart p.separator use text k other) : n = k ∧ rest = other := by
  rw [OffsetPattern.separator_eq_colon, ← readPart?_eq_some_iff] at h h'
  rw [h] at h'
  cases h'
  exact ⟨rfl, rfl⟩

theorem ReadsParts.unique (h : ReadsParts p.separator minutes seconds text n rest)
    (h' : ReadsParts p.separator minutes seconds text k other) : n = k ∧ rest = other := by
  obtain ⟨hh, htext, hm, hs⟩ := h
  obtain ⟨hh', htext', hm', hs'⟩ := h'
  obtain ⟨rfl, rfl⟩ := (twoDigits_append_inj hh hh').1 (htext.symm.trans htext')
  obtain ⟨rfl, rfl⟩ := hm.unique hm'
  obtain ⟨rfl, rfl⟩ := hs.unique hs'
  exact ⟨rfl, rfl⟩

theorem ReadsSigned.unique {total total' : Int}
    (h : ReadsSigned p.separator minutes seconds text total rest)
    (h' : ReadsSigned p.separator minutes seconds text total' other) :
    total = total' ∧ rest = other := by
  cases h with
  | positive h =>
      cases h' with
      | positive h' =>
          obtain ⟨rfl, rfl⟩ := h.unique h'
          exact ⟨rfl, rfl⟩
  | negative h =>
      cases h' with
      | negative h' =>
          obtain ⟨rfl, rfl⟩ := h.unique h'
          exact ⟨rfl, rfl⟩

end

/-! ### Seconds by the name of the pattern -/

/-- What reading a form gives for a text that starts with a sign: the offset that the grammar has
for it, else zero in front of the text if a zero offset has no text of its own, else nothing. -/
inductive Expects (o : OffsetForm) (seconds : PartUse) (text : List Char) :
    Except (List Char) Reading → Prop
  | signed {total : Int} {rest : List Char} (h : o.pattern.Reads seconds text total rest) :
    Expects o seconds text (.ok (.value .offsetSeconds total text rest))
  | zero (hnone : ∀ total rest, ¬ o.pattern.Reads seconds text total rest)
    (hzero : o.zeroText = []) : Expects o seconds text (.ok (.value .offsetSeconds 0 text text))
  | nothing (hnone : ∀ total rest, ¬ o.pattern.Reads seconds text total rest)
    (hzero : o.zeroText ≠ []) : Expects o seconds text (.error text)

variable {o : OffsetForm} {mode : Mode}

/-- A text that is not that of a zero offset is read by the grammar, with seconds wherever minutes
have to stand. -/
theorem expects_read (hne : text ≠ [])
    (hzero : o.zeroText = [] ∨ mode.strip? o.zeroText text = none) :
    o.Expects o.pattern.secondsRead text (o.read mode text) := by
  have hzeroRead : o.readZero? mode text = none := by
    rw [readZero?, if_neg (mt List.isEmpty_iff.1 hne), if_neg (mt List.isEmpty_iff.1 hne)]
    split
    · rfl
    · rename_i hzeroText
      exact hzero.resolve_left fun h => hzeroText (List.isEmpty_iff.2 h)
  rw [read, read?, hzeroRead, Option.map_none, Option.none_or]
  rcases hsigned : readSigned? o.pattern text with _ | ⟨total, rest⟩
  · have hnone : ∀ total rest, ¬ o.pattern.Reads o.pattern.secondsRead text total rest := by
      intro total rest h
      rw [← readSigned?_eq_some_iff, hsigned] at h
      cases h
    rw [Option.none_or]
    by_cases hempty : o.zeroText = []
    · rw [if_pos (List.isEmpty_iff.2 hempty)]
      exact .zero hnone hempty
    · rw [if_neg (mt List.isEmpty_iff.1 hempty)]
      exact .nothing hnone hempty
  · exact .signed (readSigned?_eq_some_iff.1 hsigned)

/-- Behind the minutes seconds are read as the name of the pattern has them, unless the text
strays. -/
theorem readsPart_secondsRead_iff {sign : Char} {h m s : Nat} {afterHours afterMinutes : List Char}
    (hh : h < 60) (hm : ReadsPart p.separator (p.useOf 'M' 'm') afterHours m afterMinutes)
    (hstrays : ¬ p.Strays (sign :: (twoDigits h ++ afterHours))) :
    ReadsPart p.separator p.secondsRead afterMinutes s rest ↔
      ReadsPart p.separator (p.useOf 'S' 's') afterMinutes s rest := by
  by_cases hmandatory : p.minutes = .mandatory
  · have huse : p.useOf 'M' 'm' = .mandatory := by rw [p.useOf_minutes, hmandatory]
    rw [OffsetPattern.secondsRead, if_pos hmandatory]
    rw [huse] at hm
    obtain ⟨-, hlt, rfl⟩ | _ | _ := hm
    have hplain : ¬ (p.useOf 'S' 's' = .absent ∧ StartsPart p.separator afterMinutes ∨
        p.useOf 'S' 's' = .mandatory ∧ ¬ StartsPart p.separator afterMinutes) :=
      fun hseconds => hstrays ⟨huse, sign, h, m, afterMinutes, hh, hlt, rfl, hseconds⟩
    cases hs : p.useOf 'S' 's' with
    | absent =>
        have hmissing : ¬ StartsPart p.separator afterMinutes := by simpa [hs] using hplain
        constructor
        · rintro (⟨-, hn, htext⟩ | - | _)
          · exact absurd ⟨s, hn, rest, htext⟩ hmissing
          · exact .absent
        · rintro (⟨huse, -, -⟩ | _ | _)
          · exact absurd rfl huse
          · exact .missing hmissing
    | optional => rfl
    | mandatory =>
        have hstarts : StartsPart p.separator afterMinutes := by simpa [hs] using hplain
        constructor
        · rintro (⟨-, hn, htext⟩ | hmissing | _)
          · exact .written (by decide) hn htext
          · exact absurd hstarts hmissing
        · rintro (⟨-, hn, htext⟩ | _ | _)
          exact .written (by decide) hn htext
  · have habsent := (seconds_absent_or_minutes_mandatory p).resolve_right hmandatory
    rw [OffsetPattern.secondsRead, if_neg hmandatory, p.useOf_seconds, habsent]

theorem reads_secondsRead_iff {total : Int} (hstrays : ¬ p.Strays text) :
    p.Reads p.secondsRead text total rest ↔ p.Reads (p.useOf 'S' 's') text total rest := by
  constructor
  · rintro (⟨hh, rfl, hm, hs⟩ | ⟨hh, rfl, hm, hs⟩)
    · exact .positive (.mk hh rfl hm ((readsPart_secondsRead_iff hh hm hstrays).1 hs))
    · exact .negative (.mk hh rfl hm ((readsPart_secondsRead_iff hh hm hstrays).1 hs))
  · rintro (⟨hh, rfl, hm, hs⟩ | ⟨hh, rfl, hm, hs⟩)
    · exact .positive (.mk hh rfl hm ((readsPart_secondsRead_iff hh hm hstrays).2 hs))
    · exact .negative (.mk hh rfl hm ((readsPart_secondsRead_iff hh hm hstrays).2 hs))

theorem Expects.of_not_strays {r : Except (List Char) Reading}
    (h : o.Expects o.pattern.secondsRead text r) (hstrays : ¬ o.pattern.Strays text) :
    o.Expects (o.pattern.useOf 'S' 's') text r := by
  cases h with
  | signed h => exact .signed ((reads_secondsRead_iff hstrays).1 h)
  | zero hnone hzero =>
      exact .zero (fun total rest h => hnone total rest ((reads_secondsRead_iff hstrays).2 h)) hzero
  | nothing hnone hzero =>
      exact .nothing (fun total rest h => hnone total rest ((reads_secondsRead_iff hstrays).2 h))
        hzero

theorem exists_reads_of_sign {sign : Char} (hsign : sign = '+' ∨ sign = '-') {h m s : Nat}
    {seconds : PartUse} {tail : List Char} (hh : h < 60) (hm : m < 60)
    (hmandatory : p.useOf 'M' 'm' = .mandatory) (hs : ReadsPart p.separator seconds tail s rest) :
    ∃ total, p.Reads seconds (sign :: (twoDigits h ++ (p.separator ++ (twoDigits m ++ tail))))
      total rest := by
  have hminutes : ReadsPart p.separator (p.useOf 'M' 'm')
      (p.separator ++ (twoDigits m ++ tail)) m tail :=
    .written (by rw [hmandatory]; nofun) hm rfl
  rcases hsign with rfl | rfl
  · exact ⟨_, .positive (.mk hh rfl hminutes hs)⟩
  · exact ⟨_, .negative (.mk hh rfl hminutes hs)⟩

theorem startsPart_of_reads {sign : Char} {h m : Nat} {tail : List Char} {total : Int}
    (hh : h < 60) (hm : m < 60) (hmandatory : p.useOf 'M' 'm' = .mandatory)
    (hreads : p.Reads .mandatory
      (sign :: (twoDigits h ++ (p.separator ++ (twoDigits m ++ tail)))) total rest) :
    StartsPart p.separator tail := by
  have hminutes : ReadsPart p.separator (p.useOf 'M' 'm')
      (p.separator ++ (twoDigits m ++ tail)) m tail :=
    .written (by rw [hmandatory]; nofun) hm rfl
  have hparts : ∃ n, ReadsParts p.separator (p.useOf 'M' 'm') .mandatory
      (twoDigits h ++ (p.separator ++ (twoDigits m ++ tail))) n rest := by
    cases hreads with
    | positive hparts => exact ⟨_, hparts⟩
    | negative hparts => exact ⟨_, hparts⟩
  obtain ⟨n, hh', htext, hm', hs⟩ := hparts
  obtain ⟨rfl, rfl⟩ := (twoDigits_append_inj hh hh').1 htext
  obtain ⟨rfl, rfl⟩ := hminutes.unique hm'
  obtain ⟨-, hk, htail⟩ | _ | _ := hs
  exact ⟨_, hk, _, htail⟩

theorem Expects.eq_signed {seconds : PartUse} {r : Except (List Char) Reading} {total : Int}
    (h : o.Expects seconds text r) (hreads : o.pattern.Reads seconds text total rest) :
    r = .ok (.value .offsetSeconds total text rest) := by
  cases h with
  | signed h =>
      obtain ⟨rfl, rfl⟩ := h.unique hreads
      rfl
  | zero hnone _ => exact absurd hreads (hnone _ _)
  | nothing hnone _ => exact absurd hreads (hnone _ _)

/-- Seconds that stand although the name has none are taken, and those that the name has to have are
not missed: either way what is left is not what the name leaves. -/
theorem rest_ne_of_strays (hsign : text.head? = some '+' ∨ text.head? = some '-')
    (hstrays : o.pattern.Strays text) {r r' : Except (List Char) Reading}
    (hr : o.Expects o.pattern.secondsRead text r)
    (hr' : o.Expects (o.pattern.useOf 'S' 's') text r') :
    r.map Reading.rest ≠ r'.map Reading.rest := by
  obtain ⟨huse, sign, h, m, tail, hh, hm, rfl, hseconds⟩ := hstrays
  have hsign' : sign = '+' ∨ sign = '-' := by simpa using hsign
  have hread : o.pattern.secondsRead = .optional := by
    rw [OffsetPattern.secondsRead, ← OffsetPattern.useOf_minutes, if_pos huse]
  rw [hread] at hr
  rcases hseconds with ⟨hs, k, hk, rest, rfl⟩ | ⟨hs, hmissing⟩
  · rw [hs] at hr'
    let tail := o.pattern.separator ++ (twoDigits k ++ rest)
    have hwritten : ReadsPart o.pattern.separator .optional tail k rest :=
      .written (by decide) hk rfl
    have habsent : ReadsPart o.pattern.separator .absent tail 0 tail := .absent
    obtain ⟨total, htaken⟩ := exists_reads_of_sign hsign' hh hm huse hwritten
    obtain ⟨total', hleft⟩ := exists_reads_of_sign hsign' hh hm huse habsent
    rw [hr.eq_signed htaken, hr'.eq_signed hleft]
    -- The name leaves the seconds, with their digits.
    intro hrest
    have hlength := congrArg List.length (Except.ok.inj hrest)
    simp only [Reading.value, tail, twoDigits, List.length_append, List.length_cons] at hlength
    omega
  · rw [hs] at hr'
    obtain ⟨total, htaken⟩ := exists_reads_of_sign hsign' hh hm huse (.missing hmissing)
    rw [hr.eq_signed htaken]
    cases hr' with
    | signed h' => exact absurd (startsPart_of_reads hh hm huse h') hmissing
    | zero _ _ =>
        intro hrest
        have hlength := congrArg List.length (Except.ok.inj hrest)
        simp only [Reading.value, twoDigits, List.length_append, List.length_cons] at hlength
        omega
    | nothing _ _ =>
        intro hrest
        cases hrest

theorem Expects.storeResult_initial {seconds : PartUse} {r : Except (List Char) Reading}
    (h : o.Expects seconds text r) (mode : Mode) :
    ((Context.mk mode .empty []).storeResult r).2 = r.map Reading.rest := by
  cases h with
  | signed h => exact congrArg Prod.snd (Context.storeResult_value (by rintro _ ⟨⟩) text _)
  | zero _ _ => exact congrArg Prod.snd (Context.storeResult_value (by rintro _ ⟨⟩) text text)
  | nothing _ _ => rfl

end OffsetForm

namespace Node

open OffsetForm

variable {o : OffsetForm} {mode : Mode} {text : List Char}

/-- What a form reads at a sign that is not the text of its zero offset is in its grammar, with
seconds wherever minutes have to stand. This is what the name of its pattern says exactly if the
text does not stray from it. Only four patterns have texts that do. -/
theorem parse_offset_as_named_iff (hsign : text.head? = some '+' ∨ text.head? = some '-')
    (hzero : o.zeroText = [] ∨ mode.strip? o.zeroText text = none) :
    (∀ (s : Settings) (c : Context), c.mode = mode →
      ∃ r, o.Expects o.pattern.secondsRead text r ∧
        (leaf (.offset o)).parse s c text = c.storeResult r) ∧
    ((∀ (s : Settings) (c : Context), c.mode = mode →
      ∃ r, o.Expects (o.pattern.useOf 'S' 's') text r ∧
        (leaf (.offset o)).parse s c text = c.storeResult r) ↔
      ¬ o.pattern.Strays text) ∧
    (o.pattern ∉ [.hoursMinutes, .hoursColonMinutes, .hoursMinutesSeconds,
      .hoursColonMinutesSeconds] → ¬ o.pattern.Strays text) := by
  have hne : text ≠ [] := by
    rintro rfl
    simp at hsign
  have hread := expects_read hne hzero
  have hparse : ∀ (s : Settings) (c : Context), c.mode = mode →
      (leaf (.offset o)).parse s c text = c.storeResult (o.read mode text) := by
    rintro s c rfl
    rw [parse_leaf, Leaf.read]
  refine ⟨fun s c hc => ⟨_, hread, hparse s c hc⟩, ⟨?strays, ?follows⟩, ?patterns⟩
  case strays =>
    intro hnamed hstrays
    -- Without an offset that contradicts it what was read is stored, so what is left tells it.
    obtain ⟨r, hr, hstore⟩ := hnamed .root ⟨mode, .empty, []⟩ rfl
    rw [hparse _ _ rfl] at hstore
    apply rest_ne_of_strays hsign hstrays hread hr
    rw [← hread.storeResult_initial mode, ← hr.storeResult_initial mode, hstore]
  case follows =>
    intro hstrays s c hc
    exact ⟨_, hread.of_not_strays hstrays, hparse s c hc⟩
  case patterns =>
    rintro hpattern ⟨huse, _, _, _, _, -, -, -, hseconds⟩
    rw [o.pattern.useOf_seconds_of_notMem hpattern huse] at hseconds
    rcases hseconds with ⟨⟨⟩, -⟩ | ⟨⟨⟩, -⟩

/-- Sixty seconds are none, and are left behind the minutes. -/
theorem parse_offset_as_named_iff_sixty :
    let o : OffsetForm := ⟨['Z'], .hoursColonMinutesOptionalSeconds⟩
    let text := "-01:30:60".toList
    ((text.head? = some '+' ∨ text.head? = some '-') ∧
      (o.zeroText = [] ∨ Mode.initial.strip? o.zeroText text = none)) ∧
    ∀ (s : Settings) (c : Context), c.mode = .initial →
      ∃ r, o.Expects (o.pattern.useOf 'S' 's') text r ∧
        (leaf (.offset o)).parse s c text = c.storeResult r := by
  intro o text
  have hsign : text.head? = some '+' ∨ text.head? = some '-' := .inr rfl
  have hzero : o.zeroText = [] ∨ Mode.initial.strip? o.zeroText text = none := .inr rfl
  obtain ⟨-, hnamed, hpatterns⟩ := parse_offset_as_named_iff hsign hzero
  exact ⟨⟨hsign, hzero⟩, hnamed.2 (hpatterns (by decide))⟩

/-- Without seconds in its name a pattern takes them, and with seconds in upper case it does without
them. -/
theorem seconds_read_against_name :
    (Mode.initial.strip? ['Z'] "+013045".toList = none ∧
      OffsetPattern.hoursMinutes.Reads (OffsetPattern.hoursMinutes.useOf 'S' 's')
        "+013045".toList 5400 "45".toList ∧
      (leaf (.offset ⟨['Z'], .hoursMinutes⟩)).parse .root .initial "+013045".toList =
        ({ Context.initial with current := Components.empty.set .offsetSeconds 5445 }, .ok [])) ∧
    Mode.initial.strip? ['Z'] "+0130".toList = none ∧
      (∀ total rest, ¬ OffsetPattern.hoursMinutesSeconds.Reads
        (OffsetPattern.hoursMinutesSeconds.useOf 'S' 's') "+0130".toList total rest) ∧
      (leaf (.offset ⟨['Z'], .hoursMinutesSeconds⟩)).parse .root .initial "+0130".toList =
        ({ Context.initial with current := Components.empty.set .offsetSeconds 5400 }, .ok []) := by
  refine ⟨⟨rfl, ?named, rfl⟩, rfl, ?nothing, rfl⟩
  case named =>
    have hparts : ReadsParts [] .mandatory .absent "013045".toList (1 * 3600 + 30 * 60 + 0)
        "45".toList := .mk (by decide) rfl (.written (by decide) (by decide) rfl) .absent
    exact .positive hparts
  case nothing =>
    intro total rest hreads
    have hseconds : StartsPart (OffsetPattern.separator .hoursMinutesSeconds) [] :=
      startsPart_of_reads (by decide : 1 < 60) (by decide : 30 < 60) rfl hreads
    obtain ⟨n, -, tail, htail⟩ := hseconds
    cases htail

end Node

end DateTimeText
