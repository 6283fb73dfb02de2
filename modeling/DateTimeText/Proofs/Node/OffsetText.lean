import DateTimeText.Proofs.Node.LeafReading
import DateTimeText.Proofs.Text.Letters

/-!
# Offsets written and read back

An offset is written down to the parts that its pattern has, and read back without the rest. What
follows it must not look like one more part.
-/

namespace DateTimeText

/-- The seconds that the last part of an offset counts. -/
def OffsetPattern.resolution (p : OffsetPattern) : Nat :=
  if p.seconds ≠ .absent then 1 else if p.minutes ≠ .absent then 60 else 3600

theorem OffsetPattern.resolution_pos (p : OffsetPattern) : 0 < p.resolution := by
  cases p <;> decide

example : OffsetPattern.all.map (fun p => (p.name, p.resolution)) =
    [("+HH", 3600), ("+HHmm", 60), ("+HH:mm", 60), ("+HHMM", 60), ("+HH:MM", 60), ("+HHMMss", 1),
      ("+HH:MM:ss", 1), ("+HHMMSS", 1), ("+HH:MM:SS", 1)] := rfl

namespace OffsetForm

def colon (p : OffsetPattern) : List Char :=
  if p.hasColons then [':'] else []

/-- A text that does not go on with a part of an offset. -/
def EndsOffset (text : List Char) : Prop :=
  ∀ c ∈ text.head?, c.isDigit = false ∧ c ≠ ':'

theorem endsOffset_nil : EndsOffset [] := nofun

theorem readPair?_twoDigits {n : Nat} (h : n < 60) (rest : List Char) :
    readPair? (twoDigits n ++ rest) = some (n, rest) := by
  have hdigits : ∀ n < 60, (Nat.digitChar (n / 10 % 10)).isDigit = true ∧
      (Nat.digitChar (n % 10)).isDigit = true ∧
      10 * ((Nat.digitChar (n / 10 % 10)).toNat - 48) + ((Nat.digitChar (n % 10)).toNat - 48) =
        n := by
    decide
  obtain ⟨htens, hones, hvalue⟩ := hdigits n h
  simp only [twoDigits, List.cons_append, List.nil_append, readPair?, hvalue]
  exact if_pos ⟨htens, hones, h⟩

theorem twoDigits_append_inj {n k : Nat} (hn : n < 60) (hk : k < 60) {rest other : List Char} :
    twoDigits n ++ rest = twoDigits k ++ other ↔ n = k ∧ rest = other := by
  constructor
  · intro h
    have hread := readPair?_twoDigits hn rest
    rw [h, readPair?_twoDigits hk] at hread
    cases hread
    exact ⟨rfl, rfl⟩
  · rintro ⟨rfl, rfl⟩
    rfl

theorem readNext?_colon (p : OffsetPattern) {n : Nat} (h : n < 60) (rest : List Char) :
    readNext? p.hasColons (colon p ++ (twoDigits n ++ rest)) = some (n, rest) := by
  rw [colon]
  cases p.hasColons with
  | true => exact readPair?_twoDigits h rest
  | false => exact readPair?_twoDigits h rest

theorem readNext?_of_endsOffset {rest : List Char} (h : EndsOffset rest) (colons : Bool) :
    readNext? colons rest = none := by
  rcases rest with _ | ⟨c, rest⟩
  · cases colons <;> rfl
  obtain ⟨hdigit, hcolon⟩ := h c rfl
  have hpair : readPair? (c :: rest) = none := by
    rcases rest with _ | ⟨d, rest⟩
    · rfl
    · simp [readPair?, hdigit]
  cases colons with
  | true => simp [readNext?, hcolon]
  | false => exact hpair

theorem readPart?_absent (colons : Bool) (text : List Char) :
    readPart? .absent colons text = some (0, text) := rfl

theorem readPart?_mandatory (colons : Bool) (text : List Char) :
    readPart? .mandatory colons text = readNext? colons text := rfl

theorem readPart?_optional_colon (p : OffsetPattern) {n : Nat} (h : n < 60) (rest : List Char) :
    readPart? .optional p.hasColons (colon p ++ (twoDigits n ++ rest)) = some (n, rest) := by
  rw [readPart?, readNext?_colon p h]
  rfl

theorem readPart?_optional_of_endsOffset {rest : List Char} (h : EndsOffset rest) (colons : Bool) :
    readPart? .optional colons rest = some (0, rest) := by
  rw [readPart?, readNext?_of_endsOffset h]
  rfl

/-- Seconds only follow minutes that have to stand. -/
theorem seconds_absent_or_minutes_mandatory (p : OffsetPattern) :
    p.seconds = .absent ∨ p.minutes = .mandatory := by
  cases p <;> decide

theorem joinParts_singleton (p : OffsetPattern) (a : Nat) : joinParts p [a] = twoDigits a := by
  simp [joinParts]

theorem joinParts_cons_cons (p : OffsetPattern) (a b : Nat) (parts : List Nat) :
    joinParts p (a :: b :: parts) = twoDigits a ++ (colon p ++ joinParts p (b :: parts)) := by
  simp [joinParts, colon]

variable {p : OffsetPattern} {total : Int}

theorem hoursOf_eq (h : total.natAbs < 216000) : hoursOf total = total.natAbs / 3600 := by
  rw [hoursOf, Int.natAbs_tmod, Int.natAbs_tdiv]
  exact Nat.mod_eq_of_lt (Nat.div_lt_of_lt_mul (by omega : total.natAbs < 3600 * 100))

theorem minutesOf_eq (total : Int) : minutesOf total = total.natAbs / 60 % 60 := by
  rw [minutesOf, Int.natAbs_tmod, Int.natAbs_tdiv]
  rfl

theorem secondsOf_eq (total : Int) : secondsOf total = total.natAbs % 60 := by
  rw [secondsOf, Int.natAbs_tmod]
  rfl

/-- The text behind the minutes of an offset. -/
def secondsText (p : OffsetPattern) (total : Int) : List Char :=
  if writes p.seconds (secondsOf total) then colon p ++ twoDigits (secondsOf total) else []

theorem joinParts_parts (p : OffsetPattern) (total : Int) :
    joinParts p (parts p total) = twoDigits (hoursOf total) ++
      if writes p.minutes (minutesOf total) then
        colon p ++ (twoDigits (minutesOf total) ++ secondsText p total)
      else [] := by
  rw [parts, secondsText]
  split
  · split
    · rw [joinParts_cons_cons, joinParts_cons_cons, joinParts_singleton]
    · rw [joinParts_cons_cons, joinParts_singleton, List.append_nil]
  · rw [joinParts_singleton, List.append_nil]

theorem readPart?_secondsText (hp : p.minutes = .mandatory) (total : Int) {rest : List Char}
    (hrest : EndsOffset rest) :
    readPart? p.secondsRead p.hasColons (secondsText p total ++ rest) =
      some (if p.seconds = .absent then 0 else secondsOf total, rest) := by
  have hseconds : secondsOf total < 60 := by
    rw [secondsOf_eq]
    omega
  have hwritten := readPart?_optional_colon p hseconds rest
  have hmissing := readPart?_optional_of_endsOffset hrest p.hasColons
  rw [OffsetPattern.secondsRead, if_pos hp, secondsText]
  cases p.seconds with
  | absent => simpa [writes] using hmissing
  | optional =>
      by_cases hzero : secondsOf total = 0
      · simpa [writes, hzero] using hmissing
      · simpa [writes, hzero] using hwritten
  | mandatory => simpa [writes] using hwritten

/-- The parts of an offset make up its distance from UTC. -/
theorem parts_eq (h : total.natAbs < 216000) :
    hoursOf total * 3600 = total.natAbs - total.natAbs % 3600 ∧
      hoursOf total * 3600 + minutesOf total * 60 = total.natAbs - total.natAbs % 60 ∧
      hoursOf total * 3600 + minutesOf total * 60 + secondsOf total = total.natAbs := by
  rw [hoursOf_eq h, minutesOf_eq, secondsOf_eq]
  generalize total.natAbs = n
  have hsplit : n / 60 / 60 = n / 3600 := Nat.div_div_eq_div_mul n 60 60
  omega

/-- The parts that are written are read, and a part that is not there counts as zero. -/
theorem readParts?_joinParts (h : total.natAbs < 216000) {rest : List Char}
    (hrest : EndsOffset rest) :
    readParts? p (joinParts p (parts p total) ++ rest) =
      some (total.natAbs - total.natAbs % p.resolution, rest) := by
  have hhours := hoursOf_eq h
  have hminutes := minutesOf_eq total
  have hseconds := secondsOf_eq total
  have hhoursRead := readPair?_twoDigits (show hoursOf total < 60 by omega)
  have hminutesRead := readNext?_colon p (show minutesOf total < 60 by omega)
  obtain ⟨hofHours, hofMinutes, hofSeconds⟩ := parts_eq h
  have huse := seconds_absent_or_minutes_mandatory p
  rw [joinParts_parts, List.append_assoc, readParts?, hhoursRead, OffsetPattern.resolution]
  simp only [Option.bind_eq_bind, Option.bind_some]
  cases hm : p.minutes with
  | absent =>
      have hs : p.seconds = .absent := by simpa [hm] using huse
      simp [writes, readPart?_absent, OffsetPattern.secondsRead, hm, hs, hofHours]
  | optional =>
      have hs : p.seconds = .absent := by simpa [hm] using huse
      by_cases hzero : minutesOf total = 0
      · rw [hzero, Nat.zero_mul, Nat.add_zero] at hofMinutes
        simp [writes, hzero, readPart?_optional_of_endsOffset hrest, readPart?_absent,
          OffsetPattern.secondsRead, hm, hs, hofMinutes]
      · have hread := readPart?_optional_colon p (show minutesOf total < 60 by omega) rest
        simp [writes, hzero, secondsText, hs, hread, readPart?_absent, OffsetPattern.secondsRead,
          hm, hofMinutes]
  | mandatory =>
      have hread := readPart?_secondsText hm total hrest
      by_cases hs : p.seconds = .absent
      · simp [writes, readPart?_mandatory, hminutesRead, hread, hs, hofMinutes]
      · simp [writes, readPart?_mandatory, hminutesRead, hread, hs, hofSeconds, Nat.mod_one]

section

variable {o : OffsetForm} {mode : Mode}

/-- An offset is written if the total fits, as nothing but a sign, digits and colons. -/
theorem render_eq_ok (o : OffsetForm) (h : total.natAbs < 216000) :
    o.render total = .ok (if (parts o.pattern total).all (· == 0) then o.zeroText
      else (if total < 0 then '-' else '+') :: joinParts o.pattern (parts o.pattern total)) := by
  have hrange : ¬ (total < -2147483648 ∨ 2147483647 < total) := by omega
  rw [render, if_neg hrange]
  split
  · rfl
  · rfl

/-- The parts that are written are all zero if and only if nothing is left of the offset without
the rest. -/
theorem parts_all_zero_iff (h : total.natAbs < 216000) :
    (parts p total).all (· == 0) = true ↔ total.natAbs - total.natAbs % p.resolution = 0 := by
  have huse := seconds_absent_or_minutes_mandatory p
  obtain ⟨hofHours, hofMinutes, hofSeconds⟩ := parts_eq h
  simp only [parts, OffsetPattern.resolution]
  by_cases hs : p.seconds = .absent
  · cases hm : p.minutes with
    | absent =>
        simp [writes, hs]
        omega
    | optional =>
        by_cases hzero : minutesOf total = 0
        · simp [writes, hs, hzero]
          omega
        · simp [writes, hs, hzero]
          omega
    | mandatory =>
        simp [writes, hs]
        omega
  · have hm : p.minutes = .mandatory := by simpa [hs] using huse
    have hminutes : writes p.minutes (minutesOf total) = true := by
      rw [hm]
      rfl
    rw [if_pos hminutes, if_pos hs, Nat.mod_one, Nat.sub_zero]
    by_cases hwrites : writes p.seconds (secondsOf total) = true
    · rw [if_pos hwrites]
      simp only [List.all_cons, List.all_nil, Bool.and_true, Bool.and_eq_true, beq_iff_eq]
      omega
    · have hzero : secondsOf total = 0 := by
        cases hseconds : p.seconds with
        | absent => exact absurd hseconds hs
        | optional => simpa [hseconds, writes] using hwrites
        | mandatory => simp [hseconds, writes] at hwrites
      rw [if_neg hwrites]
      simp only [List.all_cons, List.all_nil, Bool.and_true, Bool.and_eq_true, beq_iff_eq]
      omega

/-- What is left of an offset without the part that its form does not write. -/
def kept (p : OffsetPattern) (total : Int) : Int :=
  total - total.tmod p.resolution

theorem kept_eq (p : OffsetPattern) (total : Int) :
    kept p total = if total < 0 then -((total.natAbs - total.natAbs % p.resolution : Nat) : Int)
      else (total.natAbs - total.natAbs % p.resolution : Nat) := by
  have hle := Nat.mod_le total.natAbs p.resolution
  rw [kept]
  split
  · rename_i hneg
    obtain ⟨n, rfl⟩ : ∃ n : Nat, total = -n := ⟨total.natAbs, by omega⟩
    rw [Int.neg_tmod, Int.natAbs_neg, Int.natAbs_natCast, ← Int.ofNat_tmod]
    rw [Int.natAbs_neg, Int.natAbs_natCast] at hle
    omega
  · rename_i hpos
    obtain ⟨n, rfl⟩ := Int.eq_ofNat_of_zero_le (Int.not_lt.1 hpos)
    rw [Int.natAbs_natCast, ← Int.ofNat_tmod]
    rw [Int.natAbs_natCast] at hle
    omega

/-- A form whose zero offset has a text that does not start like another offset. -/
def TellsZero (o : OffsetForm) (mode : Mode) : Prop :=
  ∃ c cs, o.zeroText = c :: cs ∧ mode.sameChar c '+' = false ∧ mode.sameChar c '-' = false

theorem sign_eq_or (negative : Prop) [Decidable negative] :
    (if negative then '-' else '+') = '+' ∨ (if negative then '-' else '+') = '-' := by
  split
  · exact .inr rfl
  · exact .inl rfl

theorem sameChar_sign {sign c : Char} (hsign : sign = '+' ∨ sign = '-') (hc : c ≠ sign)
    (mode : Mode) : mode.sameChar c sign = false := by
  have hcaseless : sign ∈ ['+', '-', ':', '0'] := by
    rcases hsign with rfl | rfl
    · decide
    · decide
  rw [mode.sameChar_comm, ← Bool.not_eq_true]
  exact mt (Mode.eq_of_sameChar hcaseless) hc

/-- A text that does not start with a sign is one. -/
theorem tellsZero_of_head (hne : o.zeroText ≠ [])
    (hhead : ∀ c ∈ o.zeroText.head?, c ≠ '+' ∧ c ≠ '-') (mode : Mode) : o.TellsZero mode := by
  obtain ⟨c, cs, hzero⟩ := List.exists_cons_of_ne_nil hne
  obtain ⟨hplus, hminus⟩ := hhead c (by rw [hzero]; rfl)
  exact ⟨c, cs, hzero, sameChar_sign (.inl rfl) hplus mode, sameChar_sign (.inr rfl) hminus mode⟩

theorem tellsZero_of_zeroText (h : o.zeroText = ['Z']) (mode : Mode) : o.TellsZero mode := by
  apply tellsZero_of_head
  · rw [h]
    nofun
  · rw [h]
    rintro c ⟨⟩
    decide

theorem readZero?_zeroText (h : o.TellsZero mode) (rest : List Char) :
    o.readZero? mode (o.zeroText ++ rest) = some rest := by
  obtain ⟨c, cs, hzero, -⟩ := h
  have hstrip := mode.strip?_append o.zeroText rest
  rw [readZero?, hstrip, hzero]
  rfl

theorem readZero?_sign (h : o.TellsZero mode) {sign : Char} (hsign : sign = '+' ∨ sign = '-')
    (rest : List Char) : o.readZero? mode (sign :: rest) = none := by
  obtain ⟨c, cs, hzero, hplus, hminus⟩ := h
  have hother : mode.sameChar c sign = false := by
    rcases hsign with rfl | rfl
    · exact hplus
    · exact hminus
  simp [readZero?, hzero, Mode.strip?, hother]

theorem readSigned?_of_readParts? {p : OffsetPattern} {n : Nat} {text rest : List Char}
    (h : readParts? p text = some (n, rest)) (negative : Prop) [Decidable negative] :
    readSigned? p ((if negative then '-' else '+') :: text) =
      some (if negative then -(n : Int) else n, rest) := by
  split
  · rw [readSigned?, h]
    rfl
  · rw [readSigned?, h]
    rfl

/-- An offset that is written is read back if the text of a zero offset is found there just when it
was written, but for the part that its form does not write. -/
theorem read?_render_of_readZero? (h : total.natAbs < 216000) {text rest : List Char}
    (htext : o.render total = .ok text) (hrest : EndsOffset rest)
    (hzero : o.readZero? mode (text ++ rest) =
      if (parts o.pattern total).all (· == 0) then some rest else none) :
    o.read? mode (text ++ rest) = some (kept o.pattern total, rest) := by
  rw [render_eq_ok o h] at htext
  rw [kept_eq, read?, hzero]
  by_cases hparts : (parts o.pattern total).all (· == 0) = true
  · rw [if_pos hparts, (parts_all_zero_iff h).1 hparts]
    simp
  · rw [if_neg hparts] at htext
    cases htext
    rw [if_neg hparts, List.cons_append,
      readSigned?_of_readParts? (readParts?_joinParts h hrest)]
    rfl

/-- An offset is read back in front of any text that does not go on with a part of it. -/
theorem read?_render (ho : o.TellsZero mode) (h : total.natAbs < 216000) {text rest : List Char}
    (htext : o.render total = .ok text) (hrest : EndsOffset rest) :
    o.read? mode (text ++ rest) = some (kept o.pattern total, rest) := by
  apply read?_render_of_readZero? h htext hrest
  rw [render_eq_ok o h] at htext
  cases htext
  split
  · exact readZero?_zeroText ho rest
  · exact readZero?_sign ho (sign_eq_or (total < 0)) _

theorem exists_sign_of_read? {text rest : List Char} (h : o.read? mode text = some (total, rest))
    (htotal : total ≠ 0) :
    ∃ sign tail, (sign = '+' ∨ sign = '-') ∧ text = sign :: tail := by
  rw [read?, Option.or_eq_some_iff, Option.or_eq_some_iff] at h
  rcases h with hzero | ⟨-, hsigned | ⟨-, hempty⟩⟩
  · obtain ⟨after, -, hpair⟩ := Option.map_eq_some_iff.1 hzero
    cases hpair
    exact absurd rfl htotal
  · unfold readSigned? at hsigned
    split at hsigned
    · exact ⟨'+', _, .inl rfl, rfl⟩
    · exact ⟨'-', _, .inr rfl, rfl⟩
    · cases hsigned
  · split at hempty
    · cases hempty
      exact absurd rfl htotal
    · cases hempty

/-- The text of an offset starts like that of a zero offset or with a sign. -/
theorem head?_of_render (h : total.natAbs < 216000) {text : List Char}
    (htext : o.render total = .ok text) :
    ∀ c ∈ text.head?, c ∈ o.zeroText.head? ∨ c = '+' ∨ c = '-' := by
  intro c hc
  rw [render_eq_ok o h] at htext
  cases htext
  split at hc
  · exact .inl hc
  · cases hc
    exact .inr (sign_eq_or (total < 0))

theorem kept_of_seconds {p : OffsetPattern} (h : p.seconds ≠ .absent) (total : Int) :
    kept p total = total := by
  rw [kept, OffsetPattern.resolution, if_pos h]
  simp

end

end OffsetForm

theorem UtcOffset.natAbs_total_lt (offset : UtcOffset) : offset.total.natAbs < 216000 :=
  Nat.lt_of_le_of_lt offset.natAbs_le (by decide)

theorem UtcOffset.exists_render (offset : UtcOffset) (o : OffsetForm) :
    ∃ text, o.render offset.total = .ok text :=
  ⟨_, o.render_eq_ok offset.natAbs_total_lt⟩

theorem UtcOffset.id_eq_z_or_sign (offset : UtcOffset) :
    offset = .utc ∧ offset.id = ['Z'] ∨
      ∃ sign tail, (sign = '+' ∨ sign = '-') ∧ offset.id = sign :: tail := by
  rw [id]
  by_cases hn : offset.total.natAbs = 0
  · obtain ⟨total, hle⟩ := offset
    obtain rfl : total = 0 := Int.natAbs_eq_zero.1 hn
    exact .inl ⟨rfl, rfl⟩
  · rw [if_neg hn]
    exact .inr ⟨_, _, OffsetForm.sign_eq_or (offset.total < 0), rfl⟩

/-- The id of an offset is what the ISO form writes. -/
theorem UtcOffset.render_iso (offset : UtcOffset) :
    OffsetForm.iso.render offset.total = .ok offset.id := by
  have h := offset.natAbs_total_lt
  have hpadded : ∀ n < 60, OffsetForm.twoDigits n = zeroPadded 2 n := by decide
  have hresolution : OffsetForm.iso.pattern.resolution = 1 := rfl
  have hzero : (OffsetForm.parts OffsetForm.iso.pattern offset.total).all (· == 0) = true ↔
      offset.total.natAbs = 0 := by
    rw [OffsetForm.parts_all_zero_iff h, hresolution, Nat.mod_one, Nat.sub_zero]
  rw [OffsetForm.render_eq_ok _ h, id, OffsetForm.joinParts_parts, OffsetForm.secondsText,
    OffsetForm.hoursOf_eq h, OffsetForm.minutesOf_eq, OffsetForm.secondsOf_eq,
    hpadded _ (by omega), hpadded _ (by omega), hpadded _ (by omega)]
  by_cases hn : offset.total.natAbs = 0
  · rw [if_pos (hzero.2 hn), if_pos hn]
    rfl
  · rw [if_neg (mt hzero.1 hn), if_neg hn]
    simp [OffsetForm.iso, OffsetForm.colon, OffsetForm.writes, OffsetPattern.hasColons,
      OffsetPattern.minutes, OffsetPattern.seconds]

/-- An offset that is written is stored, if the field has no value. -/
theorem Node.parseWith_offset {expand : Node → Context → List Char → Parsed} {st : Settings}
    {o : OffsetForm} {c : Context} (ho : o.TellsZero c.mode) {total : Int}
    (h : total.natAbs < 216000) {text rest : List Char} (htext : o.render total = .ok text)
    (hrest : OffsetForm.EndsOffset rest) (hnew : c.current.field .offsetSeconds = none) :
    parseWith expand st (leaf (.offset o)) c (text ++ rest) =
      ({ c with current := c.current.set .offsetSeconds (OffsetForm.kept o.pattern total) },
        .ok rest) := by
  have hread := OffsetForm.read?_render ho h htext hrest
  rw [parseWith, Leaf.read, OffsetForm.read, hread]
  exact Context.storeResult_value (by simp [hnew]) (text ++ rest) rest

end DateTimeText
