import TinyMips.Proofs.Limits

/-!
# The grammar of operands

What operands look like, without a reader: fields with commas between them and gaps around each,
where a field is a register or an immediate (`Operands.Written`). The main statement is that the
reader accepts just these texts and answers with what they spell (`Operands.parse_eq_ok_iff`). A
reader takes as many letters and digits as there are, so each token comes with the fact that what
follows it starts with none (`Text.Stops`).
-/

namespace TinyMips

/-! ## Gaps and runs -/

namespace Text

/-- Whether a text is a gap between tokens, which may be empty. -/
def IsGap (s : List Char) : Prop :=
  ∀ c ∈ s, isGap c = true

/-- Whether a text does not start with a character of a kind. -/
def Stops (p : Char → Bool) (s : List Char) : Prop :=
  ∀ c ∈ s.head?, p c = false

variable {p : Char → Bool} {s rest gap : List Char}

theorem stops_dropWhile (p : Char → Bool) (s : List Char) : Stops p (s.dropWhile p) := by
  intro c hc
  have h := List.head?_dropWhile_not p s
  rw [Option.mem_def.1 hc] at h
  simpa using h

theorem Stops.dropWhile (h : Stops p s) : s.dropWhile p = s := by
  cases s with
  | nil => rfl
  | cons c rest => exact List.dropWhile_cons_of_neg (by simp [h c rfl])

theorem Stops.takeWhile (h : Stops p s) : s.takeWhile p = [] := by
  cases s with
  | nil => rfl
  | cons c rest => exact List.takeWhile_cons_of_neg (by simp [h c rfl])

/-- A run of a kind is taken as a whole off a text that goes on with something else. -/
theorem Stops.takeWhile_append {run : List Char} (h : Stops p rest) (hrun : ∀ c ∈ run, p c = true) :
    (run ++ rest).takeWhile p = run ∧ (run ++ rest).dropWhile p = rest := by
  rw [List.takeWhile_append_of_pos hrun, List.dropWhile_append_of_pos hrun, h.takeWhile,
    h.dropWhile, List.append_nil]
  exact ⟨rfl, rfl⟩

theorem Stops.of_imp {q : Char → Bool} (h : Stops p s) (hpq : ∀ c, q c = true → p c = true) :
    Stops q s := by
  intro c hc
  by_contra hq
  exact absurd (hpq c (by simpa using hq)) (by simp [h c hc])

/-- A character that is not of the kind ends a run, and so does a gap in front of it. -/
theorem stops_gap_append (hp : ∀ c, isGap c = true → p c = false) (hgap : IsGap gap)
    (h : Stops p rest) : Stops p (gap ++ rest) := by
  cases gap with
  | nil => exact h
  | cons c later =>
    intro d hd
    obtain rfl := Option.some.inj hd
    exact hp c (hgap c List.mem_cons_self)

theorem isAsciiAlphanumeric_of_isGap (c : Char) (h : isGap c = true) :
    isAsciiAlphanumeric c = false := by
  simp only [isGap, Bool.or_eq_true, decide_eq_true_eq] at h
  rcases h with (rfl | rfl) | rfl <;> decide

theorem skipGap_gap_append (hgap : IsGap gap) (h : Stops isGap rest) :
    skipGap (gap ++ rest) = rest :=
  (skipGap_append_of_all (List.all_eq_true.2 hgap) rest).trans h.dropWhile

/-- What is skipped in front of a token is a gap. -/
theorem exists_gap (s : List Char) : ∃ gap, IsGap gap ∧ s = gap ++ skipGap s :=
  ⟨s.takeWhile isGap, fun _ hc => List.mem_takeWhile_imp hc, List.takeWhile_append_dropWhile.symm⟩

theorem atEnd_iff (s : List Char) : atEnd s = true ↔ IsGap s :=
  List.all_eq_true

end Text

/-! ## Immediates -/

namespace Literal

/-- A sign that can stand in front of digits, and whether it is a minus. -/
inductive IsSign : List Char → Bool → Prop
  /-- no sign -/
  | none : IsSign [] false
  /-- a plus -/
  | plus : IsSign ['+'] false
  /-- a minus -/
  | minus : IsSign ['-'] true

/-- How literals are written. -/
inductive Spells : Literal → List Char → Prop
  /-- decimal digits -/
  | decimal {isNegative : Bool} {sign digits : List Char} (hsign : IsSign sign isNegative)
    (hne : digits ≠ []) (hdigits : ∀ c ∈ digits, Text.isAsciiDigit c = true) :
    Spells ⟨isNegative, false, digits.map digitValue⟩ (sign ++ digits)
  /-- digits of base sixteen, after their mark -/
  | hex {isNegative : Bool} {sign digits : List Char} {mark : Char}
    (hsign : IsSign sign isNegative) (hmark : mark = 'x' ∨ mark = 'X') (hne : digits ≠ [])
    (hdigits : ∀ c ∈ digits, (Text.hexValue? c).isSome = true) :
    Spells ⟨isNegative, true, digits.filterMap Text.hexValue?⟩ (sign ++ '0' :: mark :: digits)

/-- Whether a text denotes an integer: it spells a literal, and the literal is within the limits. -/
def Denotes (text : List Char) (n : Int) : Prop :=
  ∃ literal : Literal, literal.Spells text ∧ literal.value = .ok n

theorem isAsciiAlphanumeric_of_isAsciiDigit {c : Char} (h : Text.isAsciiDigit c = true) :
    Text.isAsciiAlphanumeric c = true := by
  rw [Text.isAsciiAlphanumeric, h, Bool.or_true]

theorem isAsciiAlphanumeric_of_hexValue? {c : Char} (h : (Text.hexValue? c).isSome = true) :
    Text.isAsciiAlphanumeric c = true := by
  simp only [Text.hexValue?] at h
  split at h
  case _ hc => simp [Text.isAsciiAlphanumeric, Text.isAsciiDigit, hc]
  case _ =>
    split at h
    case _ hc =>
      have hz : c ≤ 'z' := Char.le_trans hc.2 (by decide)
      simp [Text.isAsciiAlphanumeric, Text.isAsciiLetter, hc, hz]
    case _ =>
      split at h
      case _ hc =>
        have hz : c ≤ 'Z' := Char.le_trans hc.2 (by decide)
        simp [Text.isAsciiAlphanumeric, Text.isAsciiLetter, hc, hz]
      case _ => cases h

/-- A sign is found in front of what is none. -/
theorem readSign_append {sign body : List Char} {isNegative : Bool} (h : IsSign sign isNegative)
    (hbody : ∀ c ∈ body.head?, Text.isAsciiAlphanumeric c = true) :
    Numeral.readSign (sign ++ body) = (isNegative, body) := by
  cases h with
  | plus => rfl
  | minus => rfl
  | none =>
    have unsigned : ∀ c rest, body = c :: rest → c ≠ '+' ∧ c ≠ '-' := by
      rintro c rest rfl
      have hc := hbody c rfl
      constructor
      · rintro rfl
        exact absurd hc (by decide)
      · rintro rfl
        exact absurd hc (by decide)
    exact Numeral.readSign.eq_3 body (fun rest h => (unsigned _ rest h).1 rfl)
      (fun rest h => (unsigned _ rest h).2 rfl)

theorem exists_readSign (s : List Char) :
    ∃ sign, IsSign sign (Numeral.readSign s).1 ∧ s = sign ++ (Numeral.readSign s).2 := by
  unfold Numeral.readSign
  split
  case _ => exact ⟨_, .plus, rfl⟩
  case _ => exact ⟨_, .minus, rfl⟩
  case _ => exact ⟨_, .none, rfl⟩

theorem hexBody?_eq_some_iff {body digits : List Char} :
    hexBody? body = some digits ↔ ∃ mark digit rest, (mark = 'x' ∨ mark = 'X') ∧
      (Text.hexValue? digit).isSome = true ∧ digits = digit :: rest ∧
      body = '0' :: mark :: digits := by
  constructor
  · intro h
    unfold hexBody? at h
    split at h
    case _ mark digit rest =>
      split at h
      case _ hmark =>
        obtain rfl := Option.some.inj h
        exact ⟨mark, digit, rest, hmark.1, hmark.2, rfl, rfl⟩
      case _ => cases h
    case _ => cases h
  · rintro ⟨mark, digit, rest, hmark, hdigit, rfl, rfl⟩
    exact if_pos ⟨hmark, hdigit⟩

/-- A digit without a mark after it starts no number of base sixteen. -/
theorem hexBody?_eq_none {first : Char} {rest : List Char}
    (h : ∀ c ∈ rest.head?, ¬(c = 'x' ∨ c = 'X')) : hexBody? (first :: rest) = none := by
  refine Option.eq_none_iff_forall_not_mem.2 fun body hbody => ?_
  obtain ⟨mark, digit, tail, hmark, -, rfl, heq⟩ := hexBody?_eq_some_iff.1 hbody
  obtain ⟨-, rfl⟩ := List.cons.inj heq
  exact h mark rfl hmark

theorem not_mark_of_isAsciiDigit {c : Char} (h : Text.isAsciiDigit c = true) :
    ¬(c = 'x' ∨ c = 'X') := by
  rintro (rfl | rfl) <;> exact absurd h (by decide)

/-- Decimal digits are read off a text that goes on with none, if they do not start a number of base
sixteen. -/
theorem read?_decimal {sign digits rest : List Char} {isNegative : Bool}
    (hsign : IsSign sign isNegative) (hne : digits ≠ [])
    (hdigits : ∀ c ∈ digits, Text.isAsciiDigit c = true)
    (hstop : Text.Stops Text.isAsciiDigit rest) (hunmarked : hexBody? (digits ++ rest) = none) :
    Literal.read? (sign ++ (digits ++ rest)) =
      some (⟨isNegative, false, digits.map digitValue⟩, rest) := by
  obtain ⟨first, later, rfl⟩ := List.exists_cons_of_ne_nil hne
  have signed : Numeral.readSign (sign ++ (first :: later ++ rest)) =
      (isNegative, first :: later ++ rest) :=
    readSign_append hsign fun c hc => by
      obtain rfl := Option.some.inj hc
      exact isAsciiAlphanumeric_of_isAsciiDigit (hdigits _ List.mem_cons_self)
  obtain ⟨taken, left⟩ := hstop.takeWhile_append hdigits
  rw [Literal.read?, signed]
  simp only [hunmarked, taken, left]

/-- A literal is read off a text that goes on with neither a letter nor a digit. -/
theorem Spells.read? {literal : Literal} {text rest : List Char} (h : literal.Spells text)
    (hrest : Text.Stops Text.isAsciiAlphanumeric rest) :
    Literal.read? (text ++ rest) = some (literal, rest) := by
  cases h with
  | @decimal isNegative sign digits hsign hne hdigits =>
    have stops : Text.Stops Text.isAsciiDigit rest :=
      hrest.of_imp fun _ => isAsciiAlphanumeric_of_isAsciiDigit
    rw [List.append_assoc]
    refine read?_decimal hsign hne hdigits stops ?_
    -- The mark would be another digit, or else the first character after the digits.
    match digits with
    | [first] =>
      refine hexBody?_eq_none fun c hc hmark => ?_
      have hstop := hrest c hc
      rcases hmark with rfl | rfl <;> exact absurd hstop (by decide)
    | first :: second :: later =>
      refine hexBody?_eq_none fun c hc => ?_
      obtain rfl := Option.some.inj hc
      exact not_mark_of_isAsciiDigit (hdigits _ (by simp))
  | @hex isNegative sign digits mark hsign hmark hne hdigits =>
    have signed : Numeral.readSign (sign ++ ('0' :: mark :: digits ++ rest)) =
        (isNegative, '0' :: mark :: digits ++ rest) :=
      readSign_append hsign fun c hc => by
        obtain rfl := Option.some.inj hc
        decide
    obtain ⟨first, later, rfl⟩ := List.exists_cons_of_ne_nil hne
    have marked : hexBody? ('0' :: mark :: (first :: later) ++ rest) =
        some (first :: later ++ rest) :=
      hexBody?_eq_some_iff.2
        ⟨mark, first, later ++ rest, hmark, hdigits first List.mem_cons_self, rfl, rfl⟩
    have stops : Text.Stops (fun c => (Text.hexValue? c).isSome) rest :=
      hrest.of_imp fun _ => isAsciiAlphanumeric_of_hexValue?
    obtain ⟨taken, left⟩ := stops.takeWhile_append hdigits
    rw [List.append_assoc, Literal.read?, signed]
    simp only [marked, taken, left]

/-- What is read as a literal spells it. -/
theorem exists_of_read? {s rest : List Char} {literal : Literal}
    (h : Literal.read? s = some (literal, rest)) :
    ∃ text, literal.Spells text ∧ s = text ++ rest := by
  obtain ⟨sign, hsign, hs⟩ := exists_readSign s
  simp only [Literal.read?] at h
  cases hhex : hexBody? (Numeral.readSign s).2 with
  | some digits =>
    obtain ⟨mark, digit, later, hmark, hdigit, rfl, hbody⟩ := hexBody?_eq_some_iff.1 hhex
    simp only [hhex] at h
    obtain ⟨rfl, rfl⟩ := Prod.mk.inj (Option.some.inj h)
    have taken : ((digit :: later).takeWhile fun c => (Text.hexValue? c).isSome) ≠ [] := by
      simp [hdigit]
    have hexadecimal : ∀ c ∈ (digit :: later).takeWhile fun c => (Text.hexValue? c).isSome,
        (Text.hexValue? c).isSome = true := fun c hc =>
      List.mem_takeWhile_imp (p := fun c => (Text.hexValue? c).isSome) hc
    refine ⟨_, .hex hsign hmark taken hexadecimal, ?_⟩
    rw [List.append_assoc, List.cons_append, List.cons_append, List.takeWhile_append_dropWhile,
      ← hbody]
    exact hs
  | none =>
    simp only [hhex] at h
    cases hdigits : (Numeral.readSign s).2.takeWhile Text.isAsciiDigit with
    | nil => simp [hdigits] at h
    | cons first later =>
      simp only [hdigits] at h
      obtain ⟨rfl, rfl⟩ := Prod.mk.inj (Option.some.inj h)
      have ascii : ∀ c ∈ first :: later, Text.isAsciiDigit c = true := fun c hc => by
        rw [← hdigits] at hc
        exact List.mem_takeWhile_imp hc
      refine ⟨_, .decimal hsign (List.cons_ne_nil _ _) ascii, ?_⟩
      rw [List.append_assoc, ← hdigits, List.takeWhile_append_dropWhile]
      exact hs

end Literal

/-! ## Tokens -/

/-- The text of a register starts with a dollar sign, so there is no gap in front of it. -/
theorem IsToken.stops {name : String} (h : IsToken name) (rest : List Char) :
    Text.Stops Text.isGap (name.toList ++ rest) := by
  obtain ⟨letters, hname, -, -⟩ := h
  rw [hname]
  intro c hc
  obtain rfl := Option.some.inj hc
  decide

/-- So it is with the text of an immediate, which starts with a sign or a digit. -/
theorem Literal.Spells.stops {literal : Literal} {text : List Char} (h : literal.Spells text)
    (rest : List Char) : Text.Stops Text.isGap (text ++ rest) := by
  have signed : ∀ {sign body : List Char} {isNegative : Bool}, IsSign sign isNegative →
      Text.Stops Text.isGap body → Text.Stops Text.isGap (sign ++ body) := by
    intro sign body isNegative hsign hbody c hc
    cases hsign with
    | none => exact hbody c hc
    | plus =>
      obtain rfl := Option.some.inj hc
      decide
    | minus =>
      obtain rfl := Option.some.inj hc
      decide
  cases h with
  | @decimal isNegative sign digits hsign hne hdigits =>
    obtain ⟨first, later, rfl⟩ := List.exists_cons_of_ne_nil hne
    rw [List.append_assoc]
    refine signed hsign fun c hc => Bool.not_eq_true _ ▸ fun hgap => ?_
    obtain rfl := Option.some.inj hc
    have ascii := isAsciiAlphanumeric_of_isAsciiDigit (hdigits _ List.mem_cons_self)
    rw [Text.isAsciiAlphanumeric_of_isGap _ hgap] at ascii
    cases ascii
  | hex hsign hmark hne hdigits =>
    rw [List.append_assoc]
    refine signed hsign fun c hc => ?_
    obtain rfl := Option.some.inj hc
    decide

/-- The text of an immediate has no characters but its sign, letters and digits. -/
theorem Literal.Spells.notMem {literal : Literal} {text : List Char} (h : literal.Spells text)
    {c : Char} (hsign : c ∉ ['+', '-']) (hc : Text.isAsciiAlphanumeric c = false) : c ∉ text := by
  have unsigned : ∀ {sign : List Char} {isNegative : Bool}, IsSign sign isNegative → c ∉ sign := by
    intro sign isNegative h
    cases h with
    | none => exact List.not_mem_nil
    | plus => exact fun hmem => hsign (List.mem_cons.2 (.inl (List.mem_singleton.1 hmem)))
    | minus => exact fun hmem => hsign (List.mem_cons_of_mem _ hmem)
  have alphanumeric : ∀ {d : Char}, Text.isAsciiAlphanumeric d = true → c ≠ d := by
    rintro d hd rfl
    cases hc.symm.trans hd
  cases h with
  | decimal hsign hne hdigits =>
    refine fun hmem => (List.mem_append.1 hmem).elim (unsigned hsign) fun hmem => ?_
    exact alphanumeric (isAsciiAlphanumeric_of_isAsciiDigit (hdigits c hmem)) rfl
  | @hex isNegative sign digits mark hsign hmark hne hdigits =>
    have marked : Text.isAsciiAlphanumeric mark = true := by rcases hmark with rfl | rfl <;> rfl
    simp only [List.mem_append, List.mem_cons, not_or]
    refine ⟨unsigned hsign, alphanumeric (by decide), alphanumeric marked, fun hmem => ?_⟩
    exact alphanumeric (isAsciiAlphanumeric_of_hexValue? (hdigits c hmem)) rfl

namespace Operands

variable {s rest : List Char} {name : String}

theorem readRegister?_eq_some_iff :
    readRegister? s = some (name, rest) ↔
      IsToken name ∧ Text.Stops Text.isAsciiAlphanumeric rest ∧
        ∃ gap, Text.IsGap gap ∧ s = gap ++ (name.toList ++ rest) := by
  constructor
  · intro h
    refine ⟨isToken_of_readRegister? h, ?_⟩
    rw [readRegister?] at h
    split at h
    case _ body hbody =>
      split at h
      case _ => cases h
      case _ letters hne =>
        obtain ⟨rfl, rfl⟩ := Prod.mk.inj (Option.some.inj h)
        obtain ⟨gap, hgap, hs⟩ := Text.exists_gap s
        refine ⟨Text.stops_dropWhile _ _, gap, hgap, ?_⟩
        rw [String.toList_ofList, List.cons_append, List.takeWhile_append_dropWhile, ← hbody]
        exact hs
    case _ => cases h
  · rintro ⟨hname, hstop, gap, hgap, rfl⟩
    have start := hname.stops rest
    obtain ⟨letters, hletters, hne, hascii⟩ := hname
    rw [hletters] at start
    obtain ⟨taken, left⟩ := hstop.takeWhile_append hascii
    rw [readRegister?, hletters, Text.skipGap_gap_append hgap start]
    simp only [List.cons_append, taken, left]
    rw [← hletters, String.ofList_toList]

theorem readComma?_eq_some_iff :
    readComma? s = some rest ↔ ∃ gap, Text.IsGap gap ∧ s = gap ++ ',' :: rest := by
  constructor
  · intro h
    rw [readComma?] at h
    split at h
    case _ body hbody =>
      obtain rfl := Option.some.inj h
      obtain ⟨gap, hgap, hs⟩ := Text.exists_gap s
      rw [hbody] at hs
      exact ⟨gap, hgap, hs⟩
    case _ => cases h
  · rintro ⟨gap, hgap, rfl⟩
    have start : Text.Stops Text.isGap (',' :: rest) := fun c hc => by
      obtain rfl := Option.some.inj hc
      decide
    rw [readComma?, Text.skipGap_gap_append hgap start]
    rfl

theorem finish?_eq_some_iff {α : Type} {a b : α} :
    finish? a s = some b ↔ a = b ∧ Text.IsGap s := by
  rw [finish?, ← Text.atEnd_iff]
  split
  case _ h => simp [h]
  case _ h => simp [h]

/-! ## Fields -/

/-- Whether a text is a field with a gap on either side of it, and then another text. -/
def IsField (field rest s : List Char) : Prop :=
  ∃ before after, Text.IsGap before ∧ Text.IsGap after ∧ s = before ++ (field ++ (after ++ rest))

/-- Whether a text consists of fields, with a comma between any two. -/
inductive Fields : List (List Char) → List Char → Prop
  /-- the last field -/
  | last {field s : List Char} (h : IsField field [] s) : Fields [field] s
  /-- a field with others after it -/
  | cons {field rest s : List Char} {fields : List (List Char)} (h : IsField field (',' :: rest) s)
    (hrest : Fields fields rest) : Fields (field :: fields) s

/-- A gap, and then what is neither a letter nor a digit, end a token. -/
theorem stops_alphanumeric {gap rest : List Char} (hgap : Text.IsGap gap)
    (h : Text.Stops Text.isAsciiAlphanumeric rest) :
    Text.Stops Text.isAsciiAlphanumeric (gap ++ rest) :=
  Text.stops_gap_append Text.isAsciiAlphanumeric_of_isGap hgap h

theorem stops_comma (rest : List Char) : Text.Stops Text.isAsciiAlphanumeric (',' :: rest) :=
  fun c hc => by
    obtain rfl := Option.some.inj hc
    decide

theorem stops_nil : Text.Stops Text.isAsciiAlphanumeric [] :=
  fun _ hc => nomatch hc

theorem readRegisterComma?_eq_some_iff :
    readRegisterComma? s = some (name, rest) ↔
      IsToken name ∧ IsField name.toList (',' :: rest) s := by
  simp only [readRegisterComma?, bind, Option.bind_eq_some_iff, Prod.exists,
    readRegister?_eq_some_iff, readComma?_eq_some_iff, pure, Option.some.injEq, Prod.mk.injEq]
  constructor
  · rintro ⟨name, -, ⟨hname, -, before, hbefore, rfl⟩, rest, ⟨after, hafter, rfl⟩, rfl, rfl⟩
    exact ⟨hname, before, after, hbefore, hafter, rfl⟩
  · rintro ⟨hname, before, after, hbefore, hafter, rfl⟩
    exact ⟨name, after ++ ',' :: rest,
      ⟨hname, stops_alphanumeric hafter (stops_comma rest), before, hbefore, rfl⟩, rest,
      ⟨after, hafter, rfl⟩, rfl, rfl⟩

/-- A register that is the last field. -/
theorem readRegister?_last_iff :
    (∃ rest, readRegister? s = some (name, rest) ∧ Text.IsGap rest) ↔
      IsToken name ∧ IsField name.toList [] s := by
  simp only [readRegister?_eq_some_iff]
  constructor
  · rintro ⟨after, ⟨hname, -, before, hbefore, rfl⟩, hafter⟩
    exact ⟨hname, before, after, hbefore, hafter, by rw [List.append_nil]⟩
  · rintro ⟨hname, before, after, hbefore, hafter, rfl⟩
    exact ⟨after ++ [], ⟨hname, stops_alphanumeric hafter stops_nil, before, hbefore, rfl⟩,
      by rwa [List.append_nil]⟩

theorem exists_of_readLiteral? {literal : Literal} (h : readLiteral? s = some (literal, rest)) :
    ∃ gap text, Text.IsGap gap ∧ literal.Spells text ∧ s = gap ++ (text ++ rest) := by
  obtain ⟨gap, hgap, hs⟩ := Text.exists_gap s
  obtain ⟨text, htext, hbody⟩ := Literal.exists_of_read? h
  rw [hbody] at hs
  exact ⟨gap, text, hgap, htext, hs⟩

/-- An immediate that is the last field. -/
theorem readLiteral?_last_iff {literal : Literal} :
    (∃ rest, readLiteral? s = some (literal, rest) ∧ Text.IsGap rest) ↔
      ∃ text, literal.Spells text ∧ IsField text [] s := by
  constructor
  · rintro ⟨after, h, hafter⟩
    obtain ⟨before, text, hbefore, htext, rfl⟩ := exists_of_readLiteral? h
    exact ⟨text, htext, before, after, hbefore, hafter, by rw [List.append_nil]⟩
  · rintro ⟨text, htext, before, after, hbefore, hafter, rfl⟩
    refine ⟨after ++ [], ?_, by rwa [List.append_nil]⟩
    rw [readLiteral?, Text.skipGap_gap_append hbefore (htext.stops _)]
    exact htext.read? (stops_alphanumeric hafter stops_nil)

/-! ## Operands -/

/-- How operands are spelled in fields. -/
inductive Spells : {shape : Shape} → Operands shape → List (List Char) → Prop
  /-- three registers -/
  | rrr {rd rs rt : String} (hrd : IsToken rd) (hrs : IsToken rs) (hrt : IsToken rt) :
    Spells (.rrr rd rs rt) [rd.toList, rs.toList, rt.toList]
  /-- two registers and an immediate -/
  | rri {rd rs : String} {text : List Char} {n : Int} (hrd : IsToken rd) (hrs : IsToken rs)
    (hn : Literal.Denotes text n) : Spells (.rri rd rs n) [rd.toList, rs.toList, text]
  /-- two registers -/
  | rr {rs rt : String} (hrs : IsToken rs) (hrt : IsToken rt) :
    Spells (.rr rs rt) [rs.toList, rt.toList]
  /-- one register -/
  | r {rd : String} (hrd : IsToken rd) : Spells (.r rd) [rd.toList]

/-- Whether operands are what a text spells. -/
def Written {shape : Shape} (ops : Operands shape) (s : List Char) : Prop :=
  ∃ fields, ops.Spells fields ∧ Fields fields s

theorem fields_singleton_iff {field s : List Char} : Fields [field] s ↔ IsField field [] s := by
  constructor
  · rintro (h | ⟨-, h⟩)
    · exact h
    · cases h
  · exact .last

theorem fields_cons_cons_iff {field next s : List Char} {fields : List (List Char)} :
    Fields (field :: next :: fields) s ↔
      ∃ rest, IsField field (',' :: rest) s ∧ Fields (next :: fields) rest := by
  constructor
  · rintro (_ | ⟨h, hrest⟩)
    exact ⟨_, h, hrest⟩
  · rintro ⟨rest, h, hrest⟩
    exact .cons h hrest

theorem readRrr?_eq_some_iff {ops : Operands .rrr} : readRrr? s = some ops ↔ ops.Written s := by
  simp only [readRrr?, bind, Option.bind_eq_some_iff, Prod.exists, readRegisterComma?_eq_some_iff,
    finish?_eq_some_iff]
  constructor
  · rintro ⟨rd, s₁, ⟨hrd, h₁⟩, rs, s₂, ⟨hrs, h₂⟩, rt, s₃, h₃, rfl, hend⟩
    obtain ⟨hrt, h₃⟩ := readRegister?_last_iff.1 ⟨s₃, h₃, hend⟩
    exact ⟨_, .rrr hrd hrs hrt, .cons h₁ (.cons h₂ (.last h₃))⟩
  · rintro ⟨fields, hspells, hfields⟩
    cases hspells with
    | rrr hrd hrs hrt =>
      obtain ⟨s₁, h₁, hfields⟩ := fields_cons_cons_iff.1 hfields
      obtain ⟨s₂, h₂, hlast⟩ := fields_cons_cons_iff.1 hfields
      obtain ⟨s₃, h₃, hend⟩ := readRegister?_last_iff.2 ⟨hrt, fields_singleton_iff.1 hlast⟩
      exact ⟨_, s₁, ⟨hrd, h₁⟩, _, s₂, ⟨hrs, h₂⟩, _, s₃, h₃, rfl, hend⟩

theorem readRr?_eq_some_iff {ops : Operands .rr} : readRr? s = some ops ↔ ops.Written s := by
  simp only [readRr?, bind, Option.bind_eq_some_iff, Prod.exists, readRegisterComma?_eq_some_iff,
    finish?_eq_some_iff]
  constructor
  · rintro ⟨rs, s₁, ⟨hrs, h₁⟩, rt, s₂, h₂, rfl, hend⟩
    obtain ⟨hrt, h₂⟩ := readRegister?_last_iff.1 ⟨s₂, h₂, hend⟩
    exact ⟨_, .rr hrs hrt, .cons h₁ (.last h₂)⟩
  · rintro ⟨fields, hspells, hfields⟩
    cases hspells with
    | rr hrs hrt =>
      obtain ⟨s₁, h₁, hlast⟩ := fields_cons_cons_iff.1 hfields
      obtain ⟨s₂, h₂, hend⟩ := readRegister?_last_iff.2 ⟨hrt, fields_singleton_iff.1 hlast⟩
      exact ⟨_, s₁, ⟨hrs, h₁⟩, _, s₂, h₂, rfl, hend⟩

theorem readR?_eq_some_iff {ops : Operands .r} : readR? s = some ops ↔ ops.Written s := by
  simp only [readR?, bind, Option.bind_eq_some_iff, Prod.exists, finish?_eq_some_iff]
  constructor
  · rintro ⟨rd, s₁, h₁, rfl, hend⟩
    obtain ⟨hrd, h₁⟩ := readRegister?_last_iff.1 ⟨s₁, h₁, hend⟩
    exact ⟨_, .r hrd, .last h₁⟩
  · rintro ⟨fields, hspells, hlast⟩
    cases hspells with
    | r hrd =>
      obtain ⟨s₁, h₁, hend⟩ := readRegister?_last_iff.2 ⟨hrd, fields_singleton_iff.1 hlast⟩
      exact ⟨_, s₁, h₁, rfl, hend⟩

theorem readRriHead?_eq_some_iff {rd rs : String} {literal : Literal} :
    readRriHead? s = some (rd, rs, literal, rest) ↔
      ∃ s₁ s₂, (IsToken rd ∧ IsField rd.toList (',' :: s₁) s) ∧
        (IsToken rs ∧ IsField rs.toList (',' :: s₂) s₁) ∧
        readLiteral? s₂ = some (literal, rest) := by
  simp only [readRriHead?, bind, Option.bind_eq_some_iff, Prod.exists, pure, Option.some.injEq,
    Prod.mk.injEq, readRegisterComma?_eq_some_iff]
  constructor
  · rintro ⟨_, s₁, hrd, _, s₂, hrs, _, _, hliteral, rfl, rfl, rfl, rfl⟩
    exact ⟨s₁, s₂, hrd, hrs, hliteral⟩
  · rintro ⟨s₁, s₂, hrd, hrs, hliteral⟩
    exact ⟨_, s₁, hrd, _, s₂, hrs, _, _, hliteral, rfl, rfl, rfl, rfl⟩

theorem readRri?_eq_ok_iff {ops : Operands .rri} :
    readRri? s = .ok (some ops) ↔ ops.Written s := by
  constructor
  · intro h
    rw [readRri?] at h
    split at h
    case _ => cases h
    case _ rd rs literal s₃ hhead =>
      obtain ⟨n, hn, h⟩ := bind_eq_ok.1 h
      obtain ⟨rfl, hend⟩ := finish?_eq_some_iff.1 (Except.ok.inj h)
      obtain ⟨s₁, s₂, ⟨hrd, h₁⟩, ⟨hrs, h₂⟩, hliteral⟩ := readRriHead?_eq_some_iff.1 hhead
      obtain ⟨text, htext, h₃⟩ := readLiteral?_last_iff.1 ⟨s₃, hliteral, hend⟩
      exact ⟨_, .rri hrd hrs ⟨literal, htext, hn⟩, .cons h₁ (.cons h₂ (.last h₃))⟩
  · rintro ⟨fields, hspells, hfields⟩
    cases hspells with
    | rri hrd hrs hn =>
      obtain ⟨literal, htext, hn⟩ := hn
      obtain ⟨s₁, h₁, hfields⟩ := fields_cons_cons_iff.1 hfields
      obtain ⟨s₂, h₂, hlast⟩ := fields_cons_cons_iff.1 hfields
      obtain ⟨s₃, hliteral, hend⟩ :=
        readLiteral?_last_iff.2 ⟨_, htext, fields_singleton_iff.1 hlast⟩
      have head := readRriHead?_eq_some_iff.2 ⟨s₁, s₂, ⟨hrd, h₁⟩, ⟨hrs, h₂⟩, hliteral⟩
      rw [readRri?, head]
      refine bind_eq_ok.2 ⟨_, hn, congrArg Except.ok ?_⟩
      exact finish?_eq_some_iff.2 ⟨rfl, hend⟩

/-- The reader of a shape accepts the texts that spell operands of the shape. -/
theorem read?_eq_ok_iff {shape : Shape} {ops : Operands shape} {s : List Char} :
    read? shape s = .ok (some ops) ↔ ops.Written s := by
  cases shape with
  | rrr => rw [read?, Except.ok.injEq, readRrr?_eq_some_iff]
  | rri => exact readRri?_eq_ok_iff
  | rr => rw [read?, Except.ok.injEq, readRr?_eq_some_iff]
  | r => rw [read?, Except.ok.injEq, readR?_eq_some_iff]

/-- Operands are what they are read as. -/
theorem parse_eq_ok_iff {shape : Shape} {ops : Operands shape} {opcode operands : String} :
    parse shape opcode operands = .ok ops ↔ ops.Written (Text.expandTabs operands.toList) := by
  rw [← read?_eq_ok_iff, parse]
  split
  case _ e he => simp [he]
  case _ he => simp [he]
  case _ ops' he => simp [he]

/-- A text that spells no operands of a shape is malformed, unless it asks for a numeral beyond the
limits. -/
theorem parse_of_not_written {shape : Shape} {opcode operands : String}
    (h : ∀ ops : Operands shape, ¬ops.Written (Text.expandTabs operands.toList))
    (hlimit : ¬HasOverlongLiteral shape (Text.expandTabs operands.toList)) :
    parse shape opcode operands = .error (.fault (.malformedOperands shape opcode operands)) := by
  rw [← read?_eq_error_iff] at hlimit
  rw [parse]
  split
  case _ e he => exact absurd ⟨e, he⟩ hlimit
  case _ => rfl
  case _ ops he => exact absurd (read?_eq_ok_iff.1 he) (h ops)

/-! ## Characters of operands -/

section Characters

variable {P : Char → Prop}

/-- What holds of the characters of a field, of gaps and of what follows holds of all of them. -/
theorem IsField.forall_mem {field rest s : List Char} (h : IsField field rest s)
    (hgap : ∀ c, Text.isGap c = true → P c) (hfield : ∀ c ∈ field, P c) (hrest : ∀ c ∈ rest, P c) :
    ∀ c ∈ s, P c := by
  obtain ⟨before, after, hbefore, hafter, rfl⟩ := h
  refine List.forall_mem_append.2 ⟨fun c hc => hgap c (hbefore c hc), ?_⟩
  refine List.forall_mem_append.2 ⟨hfield, ?_⟩
  exact List.forall_mem_append.2 ⟨fun c hc => hgap c (hafter c hc), hrest⟩

/-- What holds of the characters of fields, of gaps and of commas holds of all characters. -/
theorem Fields.forall_mem {fields : List (List Char)} {s : List Char} (h : Fields fields s)
    (hgap : ∀ c, Text.isGap c = true → P c) (hcomma : P ',')
    (hfields : ∀ field ∈ fields, ∀ c ∈ field, P c) : ∀ c ∈ s, P c := by
  induction h with
  | last h =>
    refine h.forall_mem hgap (hfields _ (List.mem_singleton_self _)) ?_
    exact fun _ hc => absurd hc List.not_mem_nil
  | cons h _ ih =>
    obtain ⟨hfield, hothers⟩ := List.forall_mem_cons.1 hfields
    exact h.forall_mem hgap hfield (List.forall_mem_cons.2 ⟨hcomma, ih hothers⟩)

/-- Operands have no characters but those of registers and of immediates, gaps, and commas. -/
theorem Written.notMem {shape : Shape} {ops : Operands shape} {s : List Char} (h : ops.Written s)
    {c : Char} (hmarks : c ∉ ['$', '+', '-', ',']) (hc : Text.isAsciiAlphanumeric c = false)
    (hgap : Text.isGap c = false) : c ∉ s := by
  obtain ⟨fields, hspells, hfields⟩ := h
  simp only [List.mem_cons, List.not_mem_nil, or_false, not_or] at hmarks
  obtain ⟨hdollar, hplus, hminus, hcomma⟩ := hmarks
  have token : ∀ {name : String}, IsToken name → c ∉ name.toList := fun h => h.notMem hdollar hc
  have inside : ∀ field ∈ fields, c ∉ field := by
    cases hspells with
    | rrr hrd hrs hrt => simp [token hrd, token hrs, token hrt]
    | rri hrd hrs hn =>
      obtain ⟨literal, htext, -⟩ := hn
      simp [token hrd, token hrs, htext.notMem (by simp [hplus, hminus]) hc]
    | rr hrs hrt => simp [token hrs, token hrt]
    | r hrd => simp [token hrd]
  have apart : ∀ d ∈ s, d ≠ c := by
    refine hfields.forall_mem (fun d hd => ?_) (Ne.symm hcomma) fun field hfield d hd => ?_
    · rintro rfl
      cases hgap.symm.trans hd
    · rintro rfl
      exact inside field hfield hd
  exact fun hmem => apart c hmem rfl

end Characters

end Operands

end TinyMips
