import TinyMips.Proofs.Grammar
import TinyMips.Proofs.LineFeed
import TinyMips.Proofs.Reading

/-!
# The grammar of lines

What the lines of a program look like, without a reader: a gap and a comment or none
(`Statement.IsTail`), or else a mnemonic and its operands, with such a tail behind them
(`Statement.Written`). The main statement is that the reader finds a line blank, reads a statement
from it or refuses it in just these cases, and that a comment at the end of a line makes no
difference to that (`Statement.ofLine?_cases`).
-/

namespace TinyMips

/-! ## Blanks around a text -/

namespace Text

/-- Whether a text is what is left of another one without the blanks on both sides of it. -/
structure IsStripped (s text : List Char) : Prop where
  /-- there are only blanks around it -/
  around : ∃ front back, (∀ c ∈ front, isBlank c = true) ∧ (∀ c ∈ back, isBlank c = true) ∧
    text = front ++ (s ++ back)
  /-- it does not start with a blank -/
  head : ∀ c ∈ s.head?, isBlank c = false
  /-- it does not end with a blank -/
  last : ∀ c ∈ s.getLast?, isBlank c = false

theorem isGap_nil : IsGap [] := fun _ hc => absurd hc List.not_mem_nil

/-- The characters of a gap are blank. -/
theorem isBlank_of_isGap (c : Char) (h : isGap c = true) : isBlank c = true := by
  simp only [isGap, Bool.or_eq_true, decide_eq_true_eq] at h
  rcases h with (rfl | rfl) | rfl <;> decide

theorem notMem_takeWhile_ne (c : Char) (s : List Char) :
    c ∉ s.takeWhile fun d => decide (d ≠ c) := fun h =>
  of_decide_eq_true (List.mem_takeWhile_imp (p := fun d => decide (d ≠ c)) h) rfl

/-- There is no gap in front of a number sign. -/
theorem stops_isGap_dropWhile_ne (s : List Char) :
    Stops isGap (s.dropWhile fun d => decide (d ≠ '#')) := by
  intro c hc
  have stop := stops_dropWhile (fun d => decide (d ≠ '#')) s c hc
  obtain rfl : c = '#' := not_not.1 (of_decide_eq_false stop)
  decide

variable {s text : List Char}

theorem isStripped_strip (text : List Char) : IsStripped (strip text) text := by
  have front := List.takeWhile_append_dropWhile (p := isBlank) (l := text)
  have back := List.takeWhile_append_dropWhile (p := isBlank) (l := (stripFront text).reverse)
  have whole : stripFront text =
      strip text ++ ((stripFront text).reverse.takeWhile isBlank).reverse := by
    rw [strip, stripBack, ← List.reverse_append, back, List.reverse_reverse]
  refine ⟨⟨text.takeWhile isBlank, ((stripFront text).reverse.takeWhile isBlank).reverse,
    fun c hc => List.mem_takeWhile_imp hc,
    fun c hc => List.mem_takeWhile_imp (List.mem_reverse.1 hc), ?_⟩, ?_, ?_⟩
  · rw [← whole]
    exact front.symm
  · intro c hc
    have stops := stops_dropWhile isBlank text
    change Stops isBlank (stripFront text) at stops
    rw [whole] at stops
    exact stops c (by simp [Option.mem_def.1 hc])
  · intro c hc
    rw [strip, stripBack, List.getLast?_reverse] at hc
    exact stops_dropWhile isBlank _ c hc

theorem isStripped_iff : IsStripped s text ↔ s = strip text := by
  constructor
  · rintro ⟨⟨front, back, hfront, hback, rfl⟩, hhead, hlast⟩
    by_cases hne : s = []
    · subst hne
      have blank : ∀ c ∈ front ++ ([] ++ back), isBlank c = true :=
        List.forall_mem_append.2 ⟨hfront, hback⟩
      rw [strip, stripFront, List.dropWhile_eq_nil_iff.2 blank]
      rfl
    · exact (trim_append hfront hback hne ((Option.any_eq_false _ _).2 hhead)
        ((Option.any_eq_false _ _).2 hlast)).symm
  · rintro rfl
    exact isStripped_strip text

end Text

namespace Statement

/-! ## The shape of a line -/

/-- A comment: a number sign, and whatever comes after it on the same line. -/
def IsComment (s : List Char) : Prop :=
  ∃ words gap, '\n' ∉ words ∧ Text.IsGap gap ∧ s = '#' :: (words ++ gap)

/-- A gap, and a comment or none. -/
def IsTail (s : List Char) : Prop :=
  ∃ gap comment, Text.IsGap gap ∧ (comment = [] ∨ IsComment comment) ∧ s = gap ++ comment

/-- A letter, and then letters, digits and underscores. -/
def IsMnemonic (s : List Char) : Prop :=
  ∃ first later, Text.isAsciiLetter first = true ∧ (∀ c ∈ later, isMnemonicChar c = true) ∧
    s = first :: later

/-- How operands are written behind a mnemonic, up to the end of the line. -/
inductive OperandsWritten : List Char → List Char → Prop
  /-- there are none -/
  | none {tail : List Char} (h : IsTail tail) : OperandsWritten [] tail
  /-- there are some: whatever is written up to a comment or to the end, without the blanks around
  it; the first character after the gap is not blank -/
  | some {operands gap words comment : List Char} (hgap : Text.IsGap gap) (hne : words ≠ [])
    (hfirst : Text.Stops Text.isBlank words) (hwords : '#' ∉ words)
    (hcomment : comment = [] ∨ IsComment comment) (hstripped : Text.IsStripped operands words) :
    OperandsWritten operands (gap ++ (words ++ comment))

/-- How a statement is written. All that can be taken for its mnemonic is. -/
def Written (opcode operands s : List Char) : Prop :=
  ∃ gap rest, Text.IsGap gap ∧ IsMnemonic opcode ∧ Text.Stops isMnemonicChar rest ∧
    OperandsWritten operands rest ∧ s = gap ++ (opcode ++ rest)

/-! ## Reading a line -/

variable {s operands opcode : List Char}

theorem isTail_iff : isTail s = true ↔ IsTail s := by
  constructor
  · intro h
    obtain ⟨gap, hgap, hs⟩ := Text.exists_gap s
    rw [isTail] at h
    split at h
    case _ rest hrest =>
      refine ⟨gap, '#' :: rest, hgap, .inr ⟨rest.takeWhile (· ≠ '\n'), rest.dropWhile (· ≠ '\n'),
        Text.notMem_takeWhile_ne _ _, (Text.atEnd_iff _).1 h, ?_⟩, hrest ▸ hs⟩
      rw [List.takeWhile_append_dropWhile]
    case _ hrest =>
      refine ⟨gap, [], hgap, .inl rfl, ?_⟩
      rw [← List.isEmpty_iff.1 h]
      exact hs
  · rintro ⟨gap, comment, hgap, rfl | ⟨words, after, hwords, hafter, rfl⟩, rfl⟩
    · have ends : Text.skipGap (gap ++ []) = [] :=
        Text.skipGap_gap_append hgap fun c hc => by cases hc
      rw [isTail, ends]
      rfl
    · have starts : Text.skipGap (gap ++ '#' :: (words ++ after)) = '#' :: (words ++ after) :=
        Text.skipGap_gap_append hgap fun c hc => by
          obtain rfl := Option.some.inj hc
          decide
      have line : ∀ c ∈ words, decide (c ≠ '\n') = true := fun c hc =>
        decide_eq_true fun hn => hwords (hn ▸ hc)
      rw [isTail, starts]
      refine (Text.atEnd_iff _).2 fun c hc => ?_
      rw [List.dropWhile_append_of_pos line] at hc
      exact hafter c ((List.dropWhile_sublist _).subset hc)

/-- A text that does not start with a gap is a tail if it is a comment, or nothing. -/
theorem isTail_iff_of_stops (h : Text.Stops Text.isGap s) : IsTail s ↔ s = [] ∨ IsComment s := by
  constructor
  · rintro ⟨gap, comment, hgap, hcomment, rfl⟩
    cases gap with
    | nil => exact hcomment
    | cons c rest =>
      have stop := h c rfl
      rw [hgap c List.mem_cons_self] at stop
      cases stop
  · exact fun h => ⟨[], s, Text.isGap_nil, h, rfl⟩

theorem readMnemonic?_eq_some_iff {rest : List Char} :
    readMnemonic? s = some (opcode, rest) ↔
      ∃ gap, Text.IsGap gap ∧ IsMnemonic opcode ∧ Text.Stops isMnemonicChar rest ∧
        s = gap ++ (opcode ++ rest) := by
  constructor
  · intro h
    obtain ⟨gap, hgap, hs⟩ := Text.exists_gap s
    rw [readMnemonic?] at h
    split at h
    case _ first later hlater =>
      split at h
      case _ hfirst =>
        obtain ⟨rfl, rfl⟩ := Prod.mk.inj (Option.some.inj h)
        refine ⟨gap, hgap, ⟨first, _, hfirst, fun c hc => List.mem_takeWhile_imp hc, rfl⟩,
          Text.stops_dropWhile _ _, ?_⟩
        rw [List.cons_append, List.takeWhile_append_dropWhile, ← hlater]
        exact hs
      case _ => cases h
    case _ => cases h
  · rintro ⟨gap, hgap, ⟨first, later, hfirst, hlater, rfl⟩, hstops, rfl⟩
    have starts : Text.skipGap (gap ++ (first :: later ++ rest)) = first :: (later ++ rest) :=
      Text.skipGap_gap_append hgap fun c hc => by
        obtain rfl := Option.some.inj hc
        refine Bool.eq_false_iff.2 fun hgap => ?_
        have other := Text.isAsciiAlphanumeric_of_isGap _ hgap
        rw [Text.isAsciiAlphanumeric, hfirst, Bool.true_or] at other
        cases other
    obtain ⟨taken, left⟩ := hstops.takeWhile_append hlater
    rw [readMnemonic?, starts]
    simp only [hfirst, taken, left, ↓reduceIte]

/-- There is no mnemonic in a tail. -/
theorem readMnemonic?_of_isTail (h : isTail s = true) : readMnemonic? s = none := by
  rw [isTail] at h
  split at h
  case _ rest hrest =>
    rw [readMnemonic?, hrest]
    rfl
  case _ hrest => rw [readMnemonic?, List.isEmpty_iff.1 h]

/-- There are no operands in it either. -/
theorem readOperands_of_isTail (h : isTail s = true) : readOperands s = ([], s) := by
  rw [isTail] at h
  split at h
  case _ rest hrest => simp [readOperands, hrest]
  case _ hrest => simp [readOperands, List.isEmpty_iff.1 h]

theorem head_eq_of_comment (h : s = [] ∨ IsComment s) : ∀ c ∈ s.head?, c = '#' := by
  rcases h with rfl | ⟨words, gap, -, -, rfl⟩
  · simp
  · simp

/-- What is read as operands is written as operands, if a tail is left. -/
theorem operandsWritten_readOperands (htail : isTail (readOperands s).2 = true) :
    OperandsWritten (readOperands s).1 s := by
  obtain ⟨gap, hgap, hs⟩ := Text.exists_gap s
  cases hnext : Text.skipGap s with
  | nil =>
    simp only [readOperands, hnext] at htail ⊢
    exact .none (isTail_iff.1 htail)
  | cons c rest =>
    by_cases hc : c = '#' ∨ Text.isBlank c = true
    · simp only [readOperands, hnext, hc, ↓reduceIte] at htail ⊢
      exact .none (isTail_iff.1 htail)
    · simp only [readOperands, hnext, hc, ↓reduceIte] at htail ⊢
      obtain ⟨hsign, hblank⟩ := not_or.1 hc
      have comment := (isTail_iff_of_stops (Text.stops_isGap_dropWhile_ne rest)).1
        (isTail_iff.1 htail)
      have first : Text.Stops Text.isBlank (c :: rest.takeWhile (· ≠ '#')) := fun d hd => by
        obtain rfl := Option.some.inj hd
        exact Bool.eq_false_iff.2 hblank
      have words : '#' ∉ c :: rest.takeWhile (· ≠ '#') :=
        List.mem_cons.not.2 (not_or.2 ⟨Ne.symm hsign, Text.notMem_takeWhile_ne '#' rest⟩)
      have written := OperandsWritten.some hgap (List.cons_ne_nil _ _) first words comment
        (Text.isStripped_strip _)
      rwa [List.cons_append, List.takeWhile_append_dropWhile, ← hnext, ← hs] at written

/-- Operands are read as they are written, and a tail is left. -/
theorem readOperands_of_written (h : OperandsWritten operands s) :
    (readOperands s).1 = operands ∧ isTail (readOperands s).2 = true := by
  cases h with
  | none h =>
    have htail := isTail_iff.2 h
    rw [readOperands_of_isTail htail]
    exact ⟨rfl, htail⟩
  | @some operands gap words comment hgap hne hfirst hwords hcomment hstripped =>
    obtain ⟨c, later, rfl⟩ := List.exists_cons_of_ne_nil hne
    obtain ⟨hsign, hlater⟩ := not_or.1 (List.mem_cons.not.1 hwords)
    have hblank : Text.isBlank c = false := hfirst c rfl
    have starts : Text.skipGap (gap ++ (c :: later ++ comment)) = c :: (later ++ comment) :=
      Text.skipGap_gap_append hgap (Text.Stops.of_imp hfirst Text.isBlank_of_isGap)
    -- The words end where the comment starts.
    have run : ∀ d ∈ later, decide (d ≠ '#') = true := fun d hd =>
      decide_eq_true fun h => hlater (h ▸ hd)
    have stops : Text.Stops (fun d => decide (d ≠ '#')) comment := fun d hd =>
      decide_eq_false (not_not.2 (head_eq_of_comment hcomment d hd))
    have after : Text.Stops Text.isGap comment := fun d hd => by
      rw [head_eq_of_comment hcomment d hd]
      rfl
    obtain ⟨taken, left⟩ := stops.takeWhile_append run
    rw [readOperands, starts]
    simp only [Ne.symm hsign, hblank, taken, left, or_self, Bool.false_eq_true, ↓reduceIte]
    exact ⟨(Text.isStripped_iff.1 hstripped).symm,
      isTail_iff.2 ((isTail_iff_of_stops after).2 hcomment)⟩

theorem readParts?_eq_some_iff :
    readParts? s = some (opcode, operands) ↔ Written opcode operands s := by
  rw [readParts?]
  constructor
  · intro h
    obtain ⟨⟨mnemonic, rest⟩, hmnemonic, h⟩ := Option.bind_eq_some_iff.1 h
    dsimp only at h
    split at h
    case _ htail =>
      obtain ⟨rfl, rfl⟩ := Prod.mk.inj (Option.some.inj h)
      obtain ⟨gap, hgap, hopcode, hstops, rfl⟩ := readMnemonic?_eq_some_iff.1 hmnemonic
      exact ⟨gap, rest, hgap, hopcode, hstops, operandsWritten_readOperands htail, rfl⟩
    case _ => cases h
  · rintro ⟨gap, rest, hgap, hopcode, hstops, hoperands, rfl⟩
    obtain ⟨rfl, htail⟩ := readOperands_of_written hoperands
    have hmnemonic := readMnemonic?_eq_some_iff.2 ⟨gap, hgap, hopcode, hstops, rfl⟩
    exact Option.bind_eq_some_iff.2 ⟨_, hmnemonic, if_pos htail⟩

/-! ## A comment at the end of a line -/

variable {words : List Char}

theorem isTail_comment (h : '\n' ∉ words) : isTail ('#' :: words) = true :=
  isTail_iff.2 ⟨[], _, Text.isGap_nil, .inr ⟨words, [], h, Text.isGap_nil, by simp⟩, rfl⟩

theorem isTail_append_comment (h : '\n' ∉ s) (hwords : '\n' ∉ words) :
    isTail (s ++ '#' :: words) = isTail s := by
  refine isTail_append h (isTail_comment hwords) ?_
  have all : ∀ c ∈ '#' :: words, decide (c ≠ '\n') = true := by
    rintro c hc
    refine decide_eq_true fun hn => ?_
    subst hn
    simp [hwords] at hc
  rw [List.dropWhile_eq_nil_iff.2 all]
  rfl

/-- The operands end in front of the comment. -/
theorem readOperands_append_comment (hwords : '\n' ∉ words) (h : '\n' ∉ s) :
    (readOperands (s ++ '#' :: words)).1 = (readOperands s).1 ∧
      isTail (readOperands (s ++ '#' :: words)).2 = isTail (readOperands s).2 := by
  cases hs : Text.skipGap s with
  | nil =>
    have blank : isTail s = true := by
      rw [isTail, hs]
      rfl
    have commented : isTail (s ++ '#' :: words) = true := isTail_append_comment h hwords ▸ blank
    rw [readOperands_of_isTail blank, readOperands_of_isTail commented]
    exact ⟨rfl, commented.trans blank.symm⟩
  | cons c rest =>
    simp only [readOperands, hs, Text.skipGap_append_of_eq_cons hs]
    by_cases hc : c = '#' ∨ Text.isBlank c = true
    · simp only [hc, ↓reduceIte]
      exact ⟨trivial, isTail_append_comment h hwords⟩
    · have sign : decide ('#' ≠ '#') = false := by decide
      have left : '\n' ∉ rest.dropWhile (· ≠ '#') := fun hmem =>
        (Text.notMem_of_skipGap_eq_cons h hs).2 ((List.dropWhile_sublist _).subset hmem)
      simp only [hc, ↓reduceIte]
      rw [Text.takeWhile_append_cons sign, Text.dropWhile_append_cons sign]
      exact ⟨rfl, isTail_append_comment left hwords⟩

theorem readParts?_append_comment (h : '\n' ∉ s) (hwords : '\n' ∉ words) :
    readParts? (s ++ '#' :: words) = readParts? s :=
  readParts?_append_cons h (by decide) (readMnemonic?_of_isTail (isTail_comment hwords))
    fun _ => readOperands_append_comment hwords

/-- A comment at the end of a line is not seen, but for the words about a line that cannot be
read. -/
theorem ofLine?_append_comment (line : Int) {text comment : List Char} (h : '\n' ∉ text)
    (hcomment : '\n' ∉ comment) :
    ofLine? line (text ++ '#' :: comment) =
      (ofLine? line text).mapError fun m =>
        { m with text := String.ofList (Text.strip (text ++ '#' :: comment)) } := by
  have left : '\n' ∉ Text.expandTabs text := Text.feed_notMem_expandTabsFrom 0 h
  obtain ⟨words, hwords, expand⟩ : ∃ words, '\n' ∉ words ∧
      Text.expandTabs (text ++ '#' :: comment) = Text.expandTabs text ++ '#' :: words := by
    obtain ⟨next, hnext⟩ := Text.exists_expandTabsFrom_append 0 text ('#' :: comment)
    exact ⟨_, Text.feed_notMem_expandTabsFrom (next + 1) hcomment, hnext⟩
  simp only [ofLine?, expand, isTail_append_comment left hwords,
    readParts?_append_comment left hwords]
  split
  case _ => rfl
  case _ => split <;> rfl

/-! ## Lines -/

theorem ofLine?_eq_none_iff {line : Int} {text : List Char} :
    ofLine? line text = .ok none ↔ IsTail (Text.expandTabs text) := by
  rw [← isTail_iff, ofLine?]
  split
  case _ h => simp [h]
  case _ h => split <;> simp [h]

theorem Written.not_isTail (h : Written opcode operands s) : ¬IsTail s := by
  obtain ⟨gap, rest, hgap, hopcode, hstops, -, rfl⟩ := h
  have read := readMnemonic?_eq_some_iff.2 ⟨gap, hgap, hopcode, hstops, rfl⟩
  intro htail
  rw [readMnemonic?_of_isTail (isTail_iff.2 htail)] at read
  cases read

theorem ofLine?_eq_some_iff {line : Int} {text : List Char} {statement : Statement} :
    ofLine? line text = .ok (some statement) ↔ statement.line = line ∧
      Written statement.opcode.toList statement.operands.toList (Text.expandTabs text) := by
  constructor
  · intro h
    rw [ofLine?] at h
    split at h
    case _ => cases h
    case _ =>
      split at h
      case _ mnemonic operands hparts =>
        obtain rfl := Option.some.inj (Except.ok.inj h)
        rw [String.toList_ofList, String.toList_ofList]
        exact ⟨rfl, readParts?_eq_some_iff.1 hparts⟩
      case _ => cases h
  · rintro ⟨rfl, h⟩
    rw [ofLine?, if_neg (mt isTail_iff.1 h.not_isTail), readParts?_eq_some_iff.2 h]
    simp only [String.ofList_toList]

theorem ofLine?_eq_error_iff {line : Int} {text : List Char} {m : Malformed} :
    ofLine? line text = .error m ↔ (m.line = line ∧ Text.IsStripped m.text.toList text) ∧
      ¬IsTail (Text.expandTabs text) ∧
      ∀ opcode operands, ¬Written opcode operands (Text.expandTabs text) := by
  constructor
  · intro h
    rw [ofLine?] at h
    split at h
    case _ => cases h
    case _ htail =>
      split at h
      case _ => cases h
      case _ hparts =>
        obtain rfl := Except.error.inj h
        rw [String.toList_ofList]
        refine ⟨⟨rfl, Text.isStripped_strip text⟩, mt isTail_iff.2 htail, fun _ _ hwritten => ?_⟩
        rw [readParts?_eq_some_iff.2 hwritten] at hparts
        cases hparts
  · rintro ⟨⟨rfl, hstripped⟩, htail, hwritten⟩
    have hparts : readParts? (Text.expandTabs text) = none :=
      Option.eq_none_iff_forall_ne_some.2 fun parts hparts =>
        hwritten _ _ (readParts?_eq_some_iff.1 hparts)
    rw [ofLine?, if_neg (mt isTail_iff.1 htail), hparts]
    simp only [← Text.isStripped_iff.1 hstripped, String.ofList_toList]

/-- **What becomes of a line.** Tabs are taken for the spaces that they stand for.

A line is blank if and only if it is a tail. A statement is read from it if and only if it is
written there, and then the statement has the number of the line, the mnemonic, and the operands
without the blanks around them. In all other cases, and in no others, the line is refused under its
number and as it is, without the blanks around it. Where there are no line feeds, a comment behind a
line changes nothing of all this but the words that are refused. -/
theorem ofLine?_cases (line : Int) (text : List Char) :
    let s := Text.expandTabs text
    (ofLine? line text = .ok none ↔ IsTail s) ∧
      (∀ statement, ofLine? line text = .ok (some statement) ↔ statement.line = line ∧
        Written statement.opcode.toList statement.operands.toList s) ∧
      (∀ m, ofLine? line text = .error m ↔
        (m.line = line ∧ Text.IsStripped m.text.toList text) ∧
          ¬IsTail s ∧ ∀ opcode operands, ¬Written opcode operands s) ∧
      ∀ comment, '\n' ∉ text → '\n' ∉ comment →
        ofLine? line (text ++ '#' :: comment) = (ofLine? line text).mapError fun m =>
          { m with text := String.ofList (Text.strip (text ++ '#' :: comment)) } :=
  ⟨ofLine?_eq_none_iff, fun _ => ofLine?_eq_some_iff, fun _ => ofLine?_eq_error_iff,
    fun _ => ofLine?_append_comment line⟩

/-- A comment behind a statement with a tab in it, and behind a line that starts with a digit. -/
theorem ofLine?_cases_of_comment :
    let statement := " add_2$t0,\t$t1 , x ".toList
    let refused := "\t2 add ".toList
    let comment := " of # two".toList
    ('\n' ∉ statement ∧ '\n' ∉ refused ∧ '\n' ∉ comment) ∧
      ofLine? 7 (statement ++ '#' :: comment) = .ok (some ⟨7, "add_2", "$t0,      $t1 , x"⟩) ∧
      ofLine? 7 (refused ++ '#' :: comment) = .error ⟨7, "2 add # of # two"⟩ := by
  intro statement refused comment
  have noFeed : '\n' ∉ statement ∧ '\n' ∉ refused ∧ '\n' ∉ comment := by decide
  obtain ⟨hstatement, hrefused, hcomment⟩ := noFeed
  refine ⟨⟨hstatement, hrefused, hcomment⟩, ?_, ?_⟩
  · rw [(ofLine?_cases 7 statement).2.2.2 comment hstatement hcomment]
    decide
  · rw [(ofLine?_cases 7 refused).2.2.2 comment hrefused hcomment]
    decide

end Statement

end TinyMips
