import TinyMips.Proofs.LineFeed
import TinyMips.Proofs.Spellings

/-!
# Operands in other spellings

The registers of an operand text can be written in other spellings (`Respelled`). The text then has
another length, and its tabs come to stand for other numbers of spaces, but all that is in its
places stays what it is. What the two texts have in common once their tabs are written as spaces is
said character by character (`Alike`), and kept by whatever takes texts apart. The main statement is
that the same is read from either of them, or that both are malformed (`Operands.parse_respelled`).
-/

namespace TinyMips

/-! ## Respelled texts -/

/-- Whether two texts are the same, but for registers that are written with other names that are
resolved alike. -/
inductive Respelled : List Char → List Char → Prop
  /-- the end of both -/
  | nil : Respelled [] []
  /-- a character that they have in common -/
  | char (c : Char) {s t : List Char} (h : Respelled s t) : Respelled (c :: s) (c :: t)
  /-- a register, as far as its letters and digits reach -/
  | token {a b : String} {s t : List Char} (ha : IsToken a) (hb : IsToken b)
    (hab : Bank.general.canonical a = Bank.general.canonical b)
    (hs : Text.Stops Text.isAsciiAlphanumeric s) (h : Respelled s t) :
    Respelled (a.toList ++ s) (b.toList ++ t)

/-- Whether two texts are the same, but for such registers and for the widths of gaps. -/
inductive Alike : List Char → List Char → Prop
  /-- the end of both -/
  | nil : Alike [] []
  /-- a character that they have in common -/
  | char (c : Char) {s t : List Char} (h : Alike s t) : Alike (c :: s) (c :: t)
  /-- a register, as far as its letters and digits reach -/
  | token {a b : String} {s t : List Char} (ha : IsToken a) (hb : IsToken b)
    (hab : Bank.general.canonical a = Bank.general.canonical b)
    (hs : Text.Stops Text.isAsciiAlphanumeric s) (h : Alike s t) :
    Alike (a.toList ++ s) (b.toList ++ t)
  /-- a gap on both sides -/
  | gap {g g' s t : List Char} (hg : Text.IsGap g) (hne : g ≠ []) (hg' : Text.IsGap g')
    (hne' : g' ≠ []) (h : Alike s t) : Alike (g ++ s) (g' ++ t)

namespace Text

/-- A gap that is not empty does not start with a character that is none. -/
theorem stops_append_of_isGap {p : Char → Bool} {gap : List Char}
    (hp : ∀ c, isGap c = true → p c = false) (hgap : IsGap gap) (hne : gap ≠ []) (s : List Char) :
    Stops p (gap ++ s) := by
  obtain ⟨c, later, rfl⟩ := List.exists_cons_of_ne_nil hne
  intro d hd
  obtain rfl := Option.some.inj hd
  exact hp c (hgap c List.mem_cons_self)

/-- A tab stands for a gap, whatever its width is. -/
theorem isGap_tab (column : Nat) :
    IsGap (List.replicate (tabWidth - column % tabWidth) ' ') ∧
      List.replicate (tabWidth - column % tabWidth) ' ' ≠ [] := by
  have width : tabWidth - column % tabWidth ≠ 0 :=
    Nat.sub_ne_zero_of_lt (Nat.mod_lt _ (by decide))
  exact ⟨fun c hc => List.eq_of_mem_replicate hc ▸ rfl, by simpa using width⟩

/-- Writing tabs as spaces puts no letter or digit in front. -/
theorem Stops.expandTabsFrom {s : List Char} (h : Stops isAsciiAlphanumeric s) (column : Nat) :
    Stops isAsciiAlphanumeric (expandTabsFrom column s) := by
  cases s with
  | nil => exact h
  | cons c rest =>
    rw [Text.expandTabsFrom]
    split
    case isTrue =>
      obtain ⟨hgap, hne⟩ := isGap_tab column
      exact stops_append_of_isGap isAsciiAlphanumeric_of_isGap hgap hne _
    case isFalse => exact h

end Text

/-- A token starts with a dollar sign, which is no letter or digit. -/
theorem IsToken.stops_of {p : Char → Bool} {a : String} (ha : IsToken a) (hp : p '$' = false)
    (s : List Char) : Text.Stops p (a.toList ++ s) := by
  obtain ⟨letters, hname, -, -⟩ := ha
  intro c hc
  rw [hname] at hc
  obtain rfl := Option.some.inj hc
  exact hp

/-- There is one way to take a token off a text. -/
theorem IsToken.append_inj {a b : String} {s t : List Char} (ha : IsToken a) (hb : IsToken b)
    (hs : Text.Stops Text.isAsciiAlphanumeric s) (ht : Text.Stops Text.isAsciiAlphanumeric t)
    (h : a.toList ++ s = b.toList ++ t) : a = b ∧ s = t := by
  obtain ⟨letters, ha, -, hletters⟩ := ha
  obtain ⟨letters', hb, -, hletters'⟩ := hb
  have body : letters ++ s = letters' ++ t := by
    rw [ha, hb] at h
    exact (List.cons.inj h).2
  obtain ⟨taken, left⟩ := hs.takeWhile_append hletters
  obtain ⟨taken', left'⟩ := ht.takeWhile_append hletters'
  rw [body] at taken left
  refine ⟨String.toList_inj.1 ?_, left.symm.trans left'⟩
  rw [ha, hb, taken.symm.trans taken']

namespace Alike

variable {s t w gap : List Char} {c : Char}

/-- A text goes on with a letter or a digit if the other one does. -/
theorem stops {p : Char → Bool} (hp : ∀ c, p c = true → Text.isAsciiAlphanumeric c = true)
    (h : Alike s t) (hs : Text.Stops p s) : Text.Stops p t := by
  have off {c : Char} (hc : Text.isAsciiAlphanumeric c = false) : p c = false :=
    Bool.eq_false_iff.2 fun h => by rw [hp c h] at hc; cases hc
  cases h with
  | nil => exact hs
  | char c h => exact hs
  | token ha hb => exact hb.stops_of (off rfl) _
  | gap hg hne hg' hne' h =>
    exact Text.stops_append_of_isGap (fun c hc => off (Text.isAsciiAlphanumeric_of_isGap c hc)) hg'
      hne' _

theorem symm (h : Alike s t) : Alike t s := by
  induction h with
  | nil => exact .nil
  | char c h ih => exact .char c ih
  | token ha hb hab hs h ih => exact .token hb ha hab.symm (h.stops (fun _ h => h) hs) ih
  | gap hg hne hg' hne' h ih => exact .gap hg' hne' hg hne ih

/-! ### Taking texts apart -/

/-- Letters and digits are no dollar signs and no gaps. -/
theorem inner_of_isAsciiAlphanumeric (h : Text.isAsciiAlphanumeric c = true) :
    c ≠ '$' ∧ Text.isGap c = false := by
  constructor
  · rintro rfl
    cases h
  · refine Bool.eq_false_iff.2 fun hgap => ?_
    rw [Text.isAsciiAlphanumeric_of_isGap c hgap] at h
    cases h

/-- A character that starts no token and is no gap is found in both. -/
theorem of_cons (h : Alike (c :: s) t) (hdollar : c ≠ '$') (hgap : Text.isGap c = false) :
    ∃ t', t = c :: t' ∧ Alike s t' := by
  generalize hu : c :: s = u at h
  cases h with
  | nil => cases hu
  | char d h =>
    cases hu
    exact ⟨_, rfl, h⟩
  | token ha =>
    obtain ⟨letters, hname, -, -⟩ := ha
    rw [hname] at hu
    exact absurd (List.cons.inj hu).1 hdollar
  | gap hg hne =>
    obtain ⟨d, later, rfl⟩ := List.exists_cons_of_ne_nil hne
    obtain ⟨rfl, -⟩ := List.cons.inj hu
    cases hgap.symm.trans (hg c List.mem_cons_self)

theorem of_append (hw : ∀ c ∈ w, c ≠ '$' ∧ Text.isGap c = false) (h : Alike (w ++ s) t) :
    ∃ t', t = w ++ t' ∧ Alike s t' := by
  induction w generalizing t with
  | nil => exact ⟨t, rfl, h⟩
  | cons c rest ih =>
    obtain ⟨⟨hdollar, hgap⟩, hrest⟩ := List.forall_mem_cons.1 hw
    obtain ⟨t₁, rfl, h₁⟩ := h.of_cons hdollar hgap
    obtain ⟨t₂, rfl, h₂⟩ := ih hrest h₁
    exact ⟨t₂, rfl, h₂⟩

theorem skipGap (h : Alike s t) : Alike (Text.skipGap s) (Text.skipGap t) := by
  induction h with
  | nil => exact .nil
  | @char c s t h ih =>
    by_cases hc : Text.isGap c = true
    · simpa only [Text.skipGap, List.dropWhile_cons_of_pos hc] using ih
    · simpa only [Text.skipGap, List.dropWhile_cons_of_neg hc] using h.char c
  | @token a b s t ha hb hab hs h ih =>
    have left : Text.skipGap (a.toList ++ s) = a.toList ++ s := (ha.stops s).dropWhile
    have right : Text.skipGap (b.toList ++ t) = b.toList ++ t := (hb.stops t).dropWhile
    rw [left, right]
    exact .token ha hb hab hs h
  | gap hg hne hg' hne' h ih =>
    rwa [Text.skipGap_append_of_all (List.all_eq_true.2 hg),
      Text.skipGap_append_of_all (List.all_eq_true.2 hg')]

/-- A gap is found in both, as far as it reaches. -/
theorem of_gap (hgap : Text.IsGap gap) (hs : Text.Stops Text.isGap s) (h : Alike (gap ++ s) t) :
    ∃ gap' t', Text.IsGap gap' ∧ t = gap' ++ t' ∧ Alike s t' := by
  have skipped := h.skipGap
  rw [Text.skipGap_gap_append hgap hs] at skipped
  obtain ⟨gap', hgap', ht⟩ := Text.exists_gap t
  exact ⟨gap', _, hgap', ht, skipped⟩

/-- For a token there is one that is resolved alike. -/
theorem of_token {a : String} (ha : IsToken a) (hs : Text.Stops Text.isAsciiAlphanumeric s)
    (h : Alike (a.toList ++ s) t) :
    ∃ b t', IsToken b ∧ Bank.general.canonical a = Bank.general.canonical b ∧
      t = b.toList ++ t' ∧ Alike s t' := by
  obtain ⟨letters, hname, -, hletters⟩ := id ha
  generalize hu : a.toList ++ s = u at h
  cases h with
  | nil => rw [hname] at hu; cases hu
  | char c h =>
    -- The dollar sign is one that the texts have in common, so the letters after it are too.
    rw [hname] at hu
    obtain ⟨rfl, rfl⟩ := List.cons.inj hu
    obtain ⟨t', rfl, h'⟩ := h.of_append fun c hc => inner_of_isAsciiAlphanumeric (hletters c hc)
    exact ⟨a, t', ha, rfl, by rw [hname, List.cons_append], h'⟩
  | token ha' hb hab hs' h =>
    obtain ⟨rfl, rfl⟩ := ha.append_inj ha' hs hs' hu
    exact ⟨_, _, hb, hab, rfl, h⟩
  | gap hg hne =>
    obtain ⟨d, later, rfl⟩ := List.exists_cons_of_ne_nil hne
    rw [hname] at hu
    obtain ⟨rfl, -⟩ := List.cons.inj hu
    cases hg '$' List.mem_cons_self

end Alike

/-! ## Entries -/

/-- Whether two entries are the same integer, or registers that are resolved alike. -/
inductive Entry.Respelled : Entry → Entry → Prop
  /-- registers -/
  | register {a b : String} (h : Bank.general.canonical a = Bank.general.canonical b) :
    Respelled (.register a) (.register b)
  /-- an integer -/
  | integer (n : Int) : Respelled (.integer n) (.integer n)

namespace Entry.WrittenAs

variable {entry : Entry} {field : List Char}

/-- There is no gap in front of an entry. -/
theorem stops (h : entry.WrittenAs field) (rest : List Char) :
    Text.Stops Text.isGap (field ++ rest) := by
  cases h with
  | register h => exact h.stops rest
  | integer h =>
    obtain ⟨literal, htext, -⟩ := Numeral.spells_iff.1 h
    exact htext.stops rest

end Entry.WrittenAs

namespace Alike

variable {s t field rest : List Char} {fields : List (List Char)} {entry : Entry}

theorem of_nil (h : Alike [] t) : t = [] := by
  generalize hu : ([] : List Char) = u at h
  cases h with
  | nil => rfl
  | char => cases hu
  | token ha =>
    obtain ⟨letters, hname, -, -⟩ := ha
    rw [hname] at hu
    cases hu
  | gap hg hne => exact absurd (List.append_eq_nil_iff.1 hu.symm).1 hne

/-- For an entry there is one that is the same but for its spelling. -/
theorem of_entry (hentry : entry.WrittenAs field) (hs : Text.Stops Text.isAsciiAlphanumeric s)
    (h : Alike (field ++ s) t) :
    ∃ entry' field' t', entry.Respelled entry' ∧ entry'.WrittenAs field' ∧ t = field' ++ t' ∧
      Alike s t' := by
  cases hentry with
  | register ha =>
    obtain ⟨b, t', hb, hab, rfl, h'⟩ := h.of_token ha hs
    exact ⟨_, _, t', .register hab, .register hb, rfl, h'⟩
  | @integer n _ hn =>
    obtain ⟨literal, htext, -⟩ := Numeral.spells_iff.1 hn
    have inner : ∀ c ∈ field, c ≠ '$' ∧ Text.isGap c = false := fun c hc => by
      refine ⟨fun hdollar => ?_, Bool.eq_false_iff.2 fun hgap => ?_⟩
      · exact htext.notMem (by decide) (by decide) (hdollar ▸ hc)
      · refine htext.notMem (fun hsign => ?_) (Text.isAsciiAlphanumeric_of_isGap c hgap) hc
        rcases List.mem_pair.1 hsign with rfl | rfl <;> cases hgap
    obtain ⟨t', rfl, h'⟩ := h.of_append inner
    exact ⟨_, _, t', .integer n, .integer hn, rfl, h'⟩

/-- For a field there is one. -/
theorem of_field (hentry : entry.WrittenAs field) (hfield : Operands.IsField field rest s)
    (hstop : Text.Stops Text.isAsciiAlphanumeric rest) (hgap : Text.Stops Text.isGap rest)
    (h : Alike s t) :
    ∃ entry' field' rest', entry.Respelled entry' ∧ entry'.WrittenAs field' ∧
      Operands.IsField field' rest' t ∧ Alike rest rest' := by
  obtain ⟨before, after, hbefore, hafter, rfl⟩ := hfield
  obtain ⟨before', t₁, hbefore', rfl, h₁⟩ := h.of_gap hbefore (hentry.stops _)
  obtain ⟨entry', field', t₂, hsame, hentry', rfl, h₂⟩ :=
    h₁.of_entry hentry (Operands.stops_alphanumeric hafter hstop)
  obtain ⟨after', rest', hafter', rfl, h₃⟩ := h₂.of_gap hafter hgap
  exact ⟨entry', field', rest', hsame, hentry', ⟨before', after', hbefore', hafter', rfl⟩, h₃⟩

/-- For a field with a comma behind it there is one. -/
theorem of_field_comma (hentry : entry.WrittenAs field)
    (hfield : Operands.IsField field (',' :: rest) s) (h : Alike s t) :
    ∃ entry' field' rest', entry.Respelled entry' ∧ entry'.WrittenAs field' ∧
      Operands.IsField field' (',' :: rest') t ∧ Alike rest rest' := by
  have gap : Text.Stops Text.isGap (',' :: rest) := fun c hc => by
    obtain rfl := Option.some.inj hc
    decide
  obtain ⟨entry', field', rest₁, hsame, hentry', hfield', h₁⟩ :=
    h.of_field hentry hfield (Operands.stops_comma rest) gap
  obtain ⟨rest', rfl, h'⟩ := h₁.of_cons (by decide) (by decide)
  exact ⟨entry', field', rest', hsame, hentry', hfield', h'⟩

/-- For fields there are as many. -/
theorem of_fields {entries : List Entry} (hfields : Operands.Fields fields s)
    (hentries : List.Forall₂ Entry.WrittenAs entries fields) (h : Alike s t) :
    ∃ entries' fields', List.Forall₂ Entry.Respelled entries entries' ∧
      List.Forall₂ Entry.WrittenAs entries' fields' ∧ Operands.Fields fields' t := by
  induction hfields generalizing entries t with
  | last hfield =>
    obtain _ | ⟨hentry, ⟨⟩⟩ := hentries
    obtain ⟨entry', field', rest', hsame, hentry', hfield', h'⟩ :=
      h.of_field hentry hfield Operands.stops_nil nofun
    rw [h'.of_nil] at hfield'
    exact ⟨[entry'], [field'], .cons hsame .nil, .cons hentry' .nil, .last hfield'⟩
  | cons hfield _ ih =>
    obtain _ | ⟨hentry, hentries⟩ := hentries
    obtain ⟨entry', field', rest', hsame, hentry', hfield', h'⟩ := h.of_field_comma hentry hfield
    obtain ⟨entries', fields', hsames, hentries', hfields'⟩ := ih hentries h'
    exact ⟨entry' :: entries', field' :: fields', .cons hsame hsames, .cons hentry' hentries',
      .cons hfield' hfields'⟩

/-- Where there are decimal digits in the one text, there are as many in the other. -/
theorem startsWith {count : Nat} (hcount : 0 < count) (hstart : Numeral.StartsWith count s)
    (h : Alike s t) : Numeral.StartsWith count t := by
  obtain ⟨gap, sign, isNegative, digits, rest, hgap, hsign, hdigits, rfl, hrest, rfl⟩ := hstart
  have inner : ∀ c ∈ sign ++ digits, c ≠ '$' ∧ Text.isGap c = false := by
    refine List.forall_mem_append.2 ⟨?_, fun c hc => inner_of_isAsciiAlphanumeric <|
      Literal.isAsciiAlphanumeric_of_isAsciiDigit (Numeral.isDigit_ten_iff.1 (hdigits c hc))⟩
    cases hsign with
    | none => exact nofun
    | plus => exact List.forall_mem_singleton.2 (by decide)
    | minus => exact List.forall_mem_singleton.2 (by decide)
  have start : Text.Stops Text.isGap (sign ++ (digits ++ rest)) := fun c hc => by
    obtain ⟨first, later, hfirst⟩ := List.exists_cons_of_ne_nil
      (List.append_ne_nil_of_right_ne_nil sign (List.length_pos_iff.1 hcount))
    rw [← List.append_assoc, hfirst] at hc
    obtain rfl := Option.some.inj hc
    exact (inner _ (hfirst ▸ List.mem_cons_self)).2
  obtain ⟨gap', t₁, hgap', rfl, h₁⟩ := h.of_gap hgap start
  rw [← List.append_assoc] at h₁
  obtain ⟨rest', rfl, h₂⟩ := h₁.of_append inner
  have stop := h₂.stops (fun _ => Literal.isAsciiAlphanumeric_of_isAsciiDigit)
    (Numeral.stops_isAsciiDigit_iff.2 hrest)
  exact ⟨gap', sign, isNegative, digits, rest', hgap', hsign, hdigits, rfl,
    Numeral.stops_isAsciiDigit_iff.1 stop, by rw [List.append_assoc]⟩

/-- Tabs are written as spaces, more or fewer of them. -/
theorem expandTabsFrom (h : Respelled s t) (column column' : Nat) :
    Alike (Text.expandTabsFrom column s) (Text.expandTabsFrom column' t) := by
  induction h generalizing column column' with
  | nil => exact .nil
  | @char c s t h ih =>
    rw [Text.expandTabsFrom, Text.expandTabsFrom]
    split
    case isTrue =>
      obtain ⟨hgap, hne⟩ := Text.isGap_tab column
      obtain ⟨hgap', hne'⟩ := Text.isGap_tab column'
      exact .gap hgap hne hgap' hne' (ih 0 0)
    case isFalse => exact .char c (ih _ _)
  | @token a b s t ha hb hab hs h ih =>
    have kept {name : String} (hname : IsToken name) (column : Nat) (rest : List Char) :
        ∃ next, Text.expandTabsFrom column (name.toList ++ rest) =
          name.toList ++ Text.expandTabsFrom next rest := by
      obtain ⟨next, hnext⟩ := Text.exists_expandTabsFrom_append column name.toList rest
      rw [Text.expandTabsFrom_eq_self (hname.notMem (by decide) (by decide))] at hnext
      exact ⟨next, hnext⟩
    obtain ⟨next, hleft⟩ := kept ha column s
    obtain ⟨next', hright⟩ := kept hb column' t
    rw [hleft, hright]
    exact .token ha hb hab (hs.expandTabsFrom next) (ih next next')

end Alike

/-! ## Operands -/

namespace Operands

variable {shape : Shape} {s t : List Char}

/-- What operands have in their places. -/
def entries : {shape : Shape} → Operands shape → List Entry
  | _, .rrr rd rs rt => [.register rd, .register rs, .register rt]
  | _, .rri rd rs n => [.register rd, .register rs, .integer n]
  | _, .rr rs rt => [.register rs, .register rt]
  | _, .r rd => [.register rd]

/-- Whether operands are the same, but for registers that are resolved alike. -/
def IsRespelled (a b : Operands shape) : Prop :=
  List.Forall₂ Entry.Respelled a.entries b.entries

theorem written_iff_entries {ops : Operands shape} :
    ops.Written s ↔
      ∃ fields, List.Forall₂ Entry.WrittenAs ops.entries fields ∧ Fields fields s := by
  refine exists_congr fun fields => and_congr_left fun _ => ?_
  constructor
  · rintro (⟨hrd, hrs, hrt⟩ | ⟨hrd, hrs, hn⟩ | ⟨hrs, hrt⟩ | ⟨hrd⟩)
    · exact .cons (.register hrd) (.cons (.register hrs) (.cons (.register hrt) .nil))
    · exact .cons (.register hrd) (.cons (.register hrs)
        (.cons (.integer (Numeral.spells_iff.2 hn)) .nil))
    · exact .cons (.register hrs) (.cons (.register hrt) .nil)
    · exact .cons (.register hrd) .nil
  · intro h
    cases ops with
    | rrr rd rs rt =>
      obtain _ | ⟨⟨hrd⟩, _ | ⟨⟨hrs⟩, _ | ⟨⟨hrt⟩, ⟨⟩⟩⟩⟩ := h
      exact .rrr hrd hrs hrt
    | rri rd rs n =>
      obtain _ | ⟨⟨hrd⟩, _ | ⟨⟨hrs⟩, _ | ⟨_ | ⟨hn⟩, ⟨⟩⟩⟩⟩ := h
      exact .rri hrd hrs (Numeral.spells_iff.1 hn)
    | rr rs rt =>
      obtain _ | ⟨⟨hrs⟩, _ | ⟨⟨hrt⟩, ⟨⟩⟩⟩ := h
      exact .rr hrs hrt
    | r rd =>
      obtain _ | ⟨⟨hrd⟩, ⟨⟩⟩ := h
      exact .r hrd

/-- Entries that are respelled are entries of operands of the same shape. -/
theorem exists_of_respelled {a : Operands shape} {entries : List Entry}
    (h : List.Forall₂ Entry.Respelled a.entries entries) :
    ∃ b : Operands shape, b.entries = entries := by
  cases a with
  | rrr rd rs rt =>
    obtain _ | ⟨@⟨_, rd', _⟩, _ | ⟨@⟨_, rs', _⟩, _ | ⟨@⟨_, rt', _⟩, ⟨⟩⟩⟩⟩ := h
    exact ⟨.rrr rd' rs' rt', rfl⟩
  | rri rd rs n =>
    obtain _ | ⟨@⟨_, rd', _⟩, _ | ⟨@⟨_, rs', _⟩, _ | ⟨⟨⟩, ⟨⟩⟩⟩⟩ := h
    exact ⟨.rri rd' rs' n, rfl⟩
  | rr rs rt =>
    obtain _ | ⟨@⟨_, rs', _⟩, _ | ⟨@⟨_, rt', _⟩, ⟨⟩⟩⟩ := h
    exact ⟨.rr rs' rt', rfl⟩
  | r rd =>
    obtain _ | ⟨@⟨_, rd', _⟩, ⟨⟩⟩ := h
    exact ⟨.r rd', rfl⟩

theorem Written.of_alike {a : Operands shape} (ha : a.Written s) (h : Alike s t) :
    ∃ b : Operands shape, b.Written t ∧ a.IsRespelled b := by
  obtain ⟨fields, hentries, hfields⟩ := written_iff_entries.1 ha
  obtain ⟨entries', fields', hsame, hentries', hfields'⟩ := h.of_fields hfields hentries
  obtain ⟨b, rfl⟩ := exists_of_respelled hsame
  exact ⟨b, written_iff_entries.2 ⟨fields', hentries', hfields'⟩, hsame⟩

theorem ReachesDecimal.of_alike {count : Nat} (hcount : 0 < count) (hs : ReachesDecimal count s)
    (h : Alike s t) : ReachesDecimal count t := by
  obtain ⟨rd, rs, s₁, s₂, ⟨hrd, hfield⟩, ⟨hrs, hfield'⟩, hstart⟩ := hs
  obtain ⟨_, _, t₁, ⟨_⟩, ⟨hrd'⟩, hfield₁, h₁⟩ := h.of_field_comma (.register hrd) hfield
  obtain ⟨_, _, t₂, ⟨_⟩, ⟨hrs'⟩, hfield₂, h₂⟩ := h₁.of_field_comma (.register hrs) hfield'
  exact ⟨_, _, t₁, t₂, ⟨hrd', hfield₁⟩, ⟨hrs', hfield₂⟩, h₂.startsWith hcount hstart⟩

/-- What two texts can be read as that are respelled. -/
inductive ReadAlike (opcode s t : String) :
    Except Failure (Operands shape) → Except Failure (Operands shape) → Prop
  /-- operands that are the same, but for registers that are resolved alike -/
  | read {a b : Operands shape} (h : a.IsRespelled b) : ReadAlike opcode s t (.ok a) (.ok b)
  /-- the same numeral beyond the limits -/
  | overlong (e : Numeral.Error) :
    ReadAlike opcode s t (.error (.numeral e)) (.error (.numeral e))
  /-- malformed operands on both sides -/
  | malformed : ReadAlike opcode s t (.error (.fault (.malformedOperands shape opcode s)))
      (.error (.fault (.malformedOperands shape opcode t)))

theorem read?_eq_error_of_alike {e : Numeral.Error} (h : Alike s t)
    (he : read? shape s = .error e) : read? shape t = .error e := by
  obtain ⟨rfl, count, hcount, rfl, hreaches⟩ := read?_eq_error.1 he
  exact read?_eq_error.2 ⟨rfl, count, hcount, rfl, hreaches.of_alike (by omega) h⟩

/-- Nothing else is read from a text that is respelled. -/
theorem parse_respelled {opcode s t : String} (h : Respelled s.toList t.toList) :
    ReadAlike opcode s t (parse shape opcode s) (parse shape opcode t) := by
  have alike : Alike (Text.expandTabs s.toList) (Text.expandTabs t.toList) :=
    .expandTabsFrom h 0 0
  cases hs : parse shape opcode s with
  | ok a =>
    obtain ⟨b, hb, hsame⟩ := (parse_eq_ok_iff.1 hs).of_alike alike
    rw [parse_eq_ok_iff.2 hb]
    exact .read hsame
  | error failure =>
    cases failure with
    | numeral e =>
      rw [parse_eq_numeral_iff.2 (read?_eq_error_of_alike alike (parse_eq_numeral_iff.1 hs))]
      exact .overlong e
    | fault f =>
      obtain ⟨rfl, hnone⟩ := parse_eq_fault_iff.1 hs
      obtain ⟨none_read, none_overlong⟩ := read?_eq_none_iff.1 hnone
      -- What could be read from the second text could be read from the first.
      have ht : read? shape (Text.expandTabs t.toList) = .ok none := by
        refine read?_eq_none_iff.2 ⟨fun b hb => ?_, fun e he => ?_⟩
        · obtain ⟨a, ha, -⟩ := (read?_eq_ok_iff.1 hb).of_alike alike.symm
          exact none_read a (read?_eq_ok_iff.2 ha)
        · exact none_overlong e (read?_eq_error_of_alike alike.symm he)
      rw [parse_eq_fault_iff.2 ⟨rfl, ht⟩]
      exact .malformed

end Operands

end TinyMips
