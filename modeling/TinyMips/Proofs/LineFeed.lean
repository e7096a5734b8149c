import Mathlib.Data.List.TakeWhile
import TinyMips.Statement

/-!
# The line feed at the end of a line

A line that is entered ends with a line feed, and a line of a program has lost it. The main
statement is that this makes no difference to what the line holds: `Statement.ofLine?` reads the
same statement, finds the same line blank, and quotes the same text of a malformed one
(`Statement.ofLine?_append_feed`). So it is for every reader on the way to it, for texts that have
no other line feed.
-/

namespace TinyMips

namespace Text

/-! ## Blanks -/

theorem stripBack_append_of_isBlank (s : List Char) {c : Char} (h : isBlank c = true) :
    stripBack (s ++ [c]) = stripBack s := by
  rw [stripBack, List.reverse_append, List.reverse_singleton, List.singleton_append,
    List.dropWhile_cons_of_pos h, stripBack]

/-- A blank at the end of a text is taken off with the others. -/
theorem strip_append_of_isBlank (s : List Char) {c : Char} (h : isBlank c = true) :
    strip (s ++ [c]) = strip s := by
  rw [strip, stripFront, List.dropWhile_append]
  by_cases hs : (s.dropWhile isBlank).isEmpty = true
  · rw [if_pos hs, List.dropWhile_cons_of_pos h, strip, stripFront, List.isEmpty_iff.1 hs]
    rfl
  · rw [if_neg hs, stripBack_append_of_isBlank _ h]
    rfl

theorem strip_append_feed (s : List Char) : strip (s ++ ['\n']) = strip s :=
  strip_append_of_isBlank s (by decide)

/-! ## Gaps -/

theorem skipGap_append_feed_of_eq_nil {s : List Char} (h : skipGap s = []) :
    skipGap (s ++ ['\n']) = [] := by
  unfold skipGap at *
  rw [List.dropWhile_append, h]
  rfl

theorem skipGap_append_of_eq_cons {s : List Char} {c : Char} {rest : List Char}
    (h : skipGap s = c :: rest) (t : List Char) : skipGap (s ++ t) = c :: (rest ++ t) := by
  unfold skipGap at *
  rw [List.dropWhile_append, h]
  rfl

theorem notMem_of_skipGap_eq_cons {s : List Char} {d c : Char} {rest : List Char} (hd : d ∉ s)
    (h : skipGap s = c :: rest) : d ≠ c ∧ d ∉ rest := by
  have sublist : (skipGap s).Sublist s := List.dropWhile_sublist isGap
  rw [h] at sublist
  constructor
  · rintro rfl
    exact hd (sublist.subset List.mem_cons_self)
  · exact fun hmem => hd (sublist.subset (List.mem_cons_of_mem c hmem))

/-! ## Stretches -/

theorem takeWhile_append_cons {p : Char → Bool} {c : Char} (h : p c = false) (s t : List Char) :
    (s ++ c :: t).takeWhile p = s.takeWhile p := by
  induction s with
  | nil => simp [h]
  | cons d rest ih => simp only [List.cons_append, List.takeWhile_cons, ih]

theorem dropWhile_append_cons {p : Char → Bool} {c : Char} (h : p c = false) (s t : List Char) :
    (s ++ c :: t).dropWhile p = s.dropWhile p ++ c :: t := by
  induction s with
  | nil => simp [h]
  | cons d rest ih =>
    simp only [List.cons_append, List.dropWhile_cons, ih]
    split <;> rfl

theorem takeWhile_append_of_not_all {p : Char → Bool} {s : List Char} (h : ¬∀ d ∈ s, p d = true)
    (t : List Char) : (s ++ t).takeWhile p = s.takeWhile p := by
  have shorter : (s.takeWhile p).length ≠ s.length := fun hlen =>
    h (List.takeWhile_eq_self_iff.1 ((List.takeWhile_sublist p).eq_of_length hlen))
  rw [List.takeWhile_append, if_neg shorter]

theorem dropWhile_append_of_not_all {p : Char → Bool} {s : List Char} (h : ¬∀ d ∈ s, p d = true)
    (t : List Char) : (s ++ t).dropWhile p = s.dropWhile p ++ t := by
  have left : ¬(s.dropWhile p).isEmpty = true := fun hnil =>
    h (List.dropWhile_eq_nil_iff.1 (List.isEmpty_iff.1 hnil))
  rw [List.dropWhile_append, if_neg left]

/-! ## Tabs -/

/-- The tabs of a text are written as spaces one by one, from left to right. -/
theorem exists_expandTabsFrom_append (column : Nat) (s t : List Char) :
    ∃ next, expandTabsFrom column (s ++ t) = expandTabsFrom column s ++ expandTabsFrom next t := by
  induction s generalizing column with
  | nil => exact ⟨column, rfl⟩
  | cons c rest ih =>
    by_cases h : c = '\t'
    · obtain ⟨next, hnext⟩ := ih 0
      exact ⟨next, by simp [expandTabsFrom, h, hnext]⟩
    · obtain ⟨next, hnext⟩ := ih (if c = '\n' ∨ c = '\r' then 0 else column + 1)
      exact ⟨next, by simp [expandTabsFrom, h, hnext]⟩

theorem expandTabsFrom_append_feed (column : Nat) (s : List Char) :
    expandTabsFrom column (s ++ ['\n']) = expandTabsFrom column s ++ ['\n'] :=
  (exists_expandTabsFrom_append column s ['\n']).choose_spec

theorem feed_notMem_expandTabsFrom (column : Nat) {s : List Char} (h : '\n' ∉ s) :
    '\n' ∉ expandTabsFrom column s := by
  induction s generalizing column with
  | nil => simp [expandTabsFrom]
  | cons c rest ih =>
    obtain ⟨hc, hrest⟩ := not_or.1 (List.mem_cons.not.1 h)
    by_cases htab : c = '\t'
    · simp [expandTabsFrom, htab, ih _ hrest]
    · simp [expandTabsFrom, htab, hc, ih _ hrest]

end Text

/-! ## Statements -/

namespace Statement

/-- A tail stays one, and a text that is none does not become one, if another tail comes after it on
the same line. -/
theorem isTail_append {s t : List Char} (h : '\n' ∉ s) (ht : isTail t = true)
    (hline : Text.atEnd (t.dropWhile (· ≠ '\n')) = true) : isTail (s ++ t) = isTail s := by
  cases hs : Text.skipGap s with
  | nil =>
    have gap : s.all Text.isGap = true := (Text.atEnd_iff_skipGap_eq_nil s).2 hs
    have blank : isTail s = true := by
      rw [isTail, hs]
      rfl
    rw [blank, isTail, Text.skipGap_append_of_all gap]
    exact ht
  | cons c rest =>
    rw [isTail, isTail, Text.skipGap_append_of_eq_cons hs, hs]
    by_cases hc : c = '#'
    · subst hc
      -- The comment takes all of the line up to its line feed.
      have all : ∀ d ∈ rest, decide (d ≠ '\n') = true := fun d hd => decide_eq_true fun hn =>
        (Text.notMem_of_skipGap_eq_cons h hs).2 (hn ▸ hd)
      simp only [List.dropWhile_append_of_pos all, List.dropWhile_eq_nil_iff.2 all]
      exact hline
    · split
      case _ heq => exact absurd (List.cons.inj heq).1 hc
      case _ =>
        split
        case _ heq => exact absurd (List.cons.inj heq).1 hc
        case _ => rfl

theorem isTail_append_feed {s : List Char} (h : '\n' ∉ s) : isTail (s ++ ['\n']) = isTail s :=
  isTail_append h (by decide) (by decide)

/-- A mnemonic is read the same if the text goes on with a character that cannot be part of one, and
with no mnemonic. -/
theorem readMnemonic?_append_cons (s : List Char) {d : Char} {t : List Char}
    (hstop : isMnemonicChar d = false) (hnone : readMnemonic? (d :: t) = none) :
    readMnemonic? (s ++ d :: t) =
      (readMnemonic? s).map fun (mnemonic, rest) => (mnemonic, rest ++ d :: t) := by
  cases hs : Text.skipGap s with
  | nil =>
    have gap : s.all Text.isGap = true := (Text.atEnd_iff_skipGap_eq_nil s).2 hs
    have none_of_gap : readMnemonic? s = none := by rw [readMnemonic?, hs]
    rw [none_of_gap, readMnemonic?, Text.skipGap_append_of_all gap]
    exact hnone
  | cons c rest =>
    rw [readMnemonic?, readMnemonic?, Text.skipGap_append_of_eq_cons hs, hs]
    by_cases hc : Text.isAsciiLetter c = true
    · simp only [hc, ↓reduceIte, Option.map_some, Text.takeWhile_append_cons hstop,
        Text.dropWhile_append_cons hstop]
    · simp only [hc, Bool.false_eq_true, ↓reduceIte, Option.map_none]

theorem feed_notMem_of_readMnemonic? {s mnemonic rest : List Char} (h : '\n' ∉ s)
    (hread : readMnemonic? s = some (mnemonic, rest)) : '\n' ∉ rest := by
  rw [readMnemonic?] at hread
  split at hread
  case _ c later hs =>
    split at hread
    case _ =>
      obtain ⟨-, rfl⟩ := Prod.mk.inj (Option.some.inj hread)
      have hlater := (Text.notMem_of_skipGap_eq_cons h hs).2
      exact fun hmem => hlater ((List.dropWhile_sublist isMnemonicChar).subset hmem)
    case _ => cases hread
  case _ => cases hread

/-- The operands end before the line feed, and what is left of the line has it if there is a
comment. -/
theorem readOperands_append_feed {s : List Char} (h : '\n' ∉ s) :
    (readOperands (s ++ ['\n'])).1 = (readOperands s).1 ∧
      isTail (readOperands (s ++ ['\n'])).2 = isTail (readOperands s).2 := by
  unfold readOperands
  cases hs : Text.skipGap s with
  | nil =>
    rw [Text.skipGap_append_feed_of_eq_nil hs]
    exact ⟨rfl, isTail_append_feed h⟩
  | cons c rest =>
    rw [Text.skipGap_append_of_eq_cons hs]
    by_cases hc : c = '#' ∨ Text.isBlank c = true
    · simp only [hc, ↓reduceIte]
      exact ⟨trivial, isTail_append_feed h⟩
    · simp only [hc, ↓reduceIte]
      -- Without a comment the line feed is read with the operands and stripped off; with one it
      -- stays behind the comment.
      by_cases hrest : ∀ d ∈ rest, decide (d ≠ '#') = true
      · have feed : ∀ d ∈ ['\n'], decide (d ≠ '#') = true := List.forall_mem_singleton.2 rfl
        have all : ∀ d ∈ rest ++ ['\n'], decide (d ≠ '#') = true :=
          List.forall_mem_append.2 ⟨hrest, feed⟩
        rw [List.takeWhile_eq_self_iff.2 all, List.takeWhile_eq_self_iff.2 hrest,
          List.dropWhile_eq_nil_iff.2 all, List.dropWhile_eq_nil_iff.2 hrest, ← List.cons_append,
          Text.strip_append_feed]
        exact ⟨rfl, rfl⟩
      · have hdrop : '\n' ∉ rest.dropWhile (fun d => decide (d ≠ '#')) := fun hmem =>
          (Text.notMem_of_skipGap_eq_cons h hs).2
            ((List.dropWhile_sublist fun d => decide (d ≠ '#')).subset hmem)
        rw [Text.takeWhile_append_of_not_all hrest, Text.dropWhile_append_of_not_all hrest]
        exact ⟨rfl, isTail_append_feed hdrop⟩

/-- A statement is read the same if its mnemonic and its operands are. -/
theorem readParts?_append_cons {s t : List Char} {d : Char} (h : '\n' ∉ s)
    (hstop : isMnemonicChar d = false) (hnone : readMnemonic? (d :: t) = none)
    (hoperands : ∀ rest, '\n' ∉ rest →
      (readOperands (rest ++ d :: t)).1 = (readOperands rest).1 ∧
        isTail (readOperands (rest ++ d :: t)).2 = isTail (readOperands rest).2) :
    readParts? (s ++ d :: t) = readParts? s := by
  unfold readParts?
  rw [readMnemonic?_append_cons s hstop hnone]
  cases hread : readMnemonic? s with
  | none => rfl
  | some parts =>
    obtain ⟨mnemonic, rest⟩ := parts
    obtain ⟨operands, tail⟩ := hoperands rest (feed_notMem_of_readMnemonic? h hread)
    change (if isTail (readOperands (rest ++ d :: t)).2 then
        some (mnemonic, (readOperands (rest ++ d :: t)).1) else none) =
      if isTail (readOperands rest).2 then some (mnemonic, (readOperands rest).1) else none
    rw [operands, tail]

theorem readParts?_append_feed {s : List Char} (h : '\n' ∉ s) :
    readParts? (s ++ ['\n']) = readParts? s :=
  readParts?_append_cons h (by decide) (by decide) fun _ => readOperands_append_feed

/-- The line feed at the end of a line is not seen. -/
theorem ofLine?_append_feed (line : Int) {text : List Char} (h : '\n' ∉ text) :
    ofLine? line (text ++ ['\n']) = ofLine? line text := by
  have expanded : '\n' ∉ Text.expandTabs text := Text.feed_notMem_expandTabsFrom 0 h
  have expand : Text.expandTabs (text ++ ['\n']) = Text.expandTabs text ++ ['\n'] :=
    Text.expandTabsFrom_append_feed 0 text
  simp only [ofLine?, expand, isTail_append_feed expanded, readParts?_append_feed expanded,
    Text.strip_append_feed]

end Statement

end TinyMips
