import Mathlib.Data.List.TakeWhile
import TinyMips.Text.Line

/-!
# Records and lines

A text read record by record and the same text cut into lines. Where line feeds are the only line
breaks, the lines are the records without their line feeds (`lines_eq_map_chomp`). The first
records of a text are the records of a text of their own (`records_flatten_takeWhile`). Lines that
have no line breaks are found again in the text that they are put together to
(`lines_append_feed`).
-/

namespace TinyMips.Text

/-- A record without the line feed at its end. -/
def chomp (record : List Char) : List Char :=
  record.takeWhile (· ≠ '\n')

/-- Whether no line break is other than a line feed. -/
def BreaksAtFeeds (s : List Char) : Prop :=
  ∀ c ∈ s, isLineBreak c = true → c = '\n'

theorem feed_notMem_chomp (record : List Char) : '\n' ∉ chomp record := by
  intro h
  have hne := List.mem_takeWhile_imp h
  exact of_decide_eq_true hne rfl

theorem chomp_cons {c : Char} (h : c ≠ '\n') (record : List Char) :
    chomp (c :: record) = c :: chomp record :=
  List.takeWhile_cons_of_pos (decide_eq_true h)

theorem map_chomp_consLine {c : Char} (h : c ≠ '\n') (ls : List (List Char)) :
    (consLine c ls).map chomp = consLine c (ls.map chomp) := by
  cases ls with
  | nil => exact congrArg (fun line => [line]) (chomp_cons h [])
  | cons line rest => exact congrArg (fun line => line :: rest.map chomp) (chomp_cons h line)

/-! ## Lines -/

theorem lines_cons {c : Char} (h : c ≠ '\r') (rest : List Char) :
    lines (c :: rest) = if isLineBreak c then [] :: lines rest else consLine c (lines rest) := by
  rw [lines]
  rintro rest' rfl
  exact absurd rfl h

/-- The lines of a text are its records without their line feeds. -/
theorem lines_eq_map_chomp {s : List Char} (h : BreaksAtFeeds s) :
    lines s = (records s).map chomp := by
  induction s with
  | nil => rfl
  | cons c rest ih =>
    have hrest : lines rest = (records rest).map chomp :=
      ih fun d hd => h d (List.mem_cons_of_mem c hd)
    -- Only a carriage return would take the next character with it.
    have hreturn : c ≠ '\r' := by
      rintro rfl
      exact absurd (h '\r' List.mem_cons_self (by decide)) (by decide)
    rw [lines_cons hreturn, records]
    by_cases hc : c = '\n'
    · subst hc
      rw [if_pos (by decide), if_pos rfl, hrest, List.map_cons]
      rfl
    · rw [if_neg fun hbreak => hc (h c List.mem_cons_self hbreak), if_neg hc, hrest,
        map_chomp_consLine hc]

/-- Whether a text has no line break. -/
def IsOneLine (s : List Char) : Prop :=
  ∀ c ∈ s, isLineBreak c = false

instance : DecidablePred IsOneLine := fun s =>
  decidable_of_iff ((s.all fun c => !isLineBreak c) = true) (by simp [IsOneLine])

theorem isOneLine_nil : IsOneLine [] := by
  intro c hc
  cases hc

theorem isOneLine_append {a b : List Char} : IsOneLine (a ++ b) ↔ IsOneLine a ∧ IsOneLine b :=
  List.forall_mem_append

/-- What holds of the characters of texts and of what stands between them holds of the characters of
all of it. -/
theorem forall_mem_intercalate {P : Char → Prop} {sep : List Char} {texts : List (List Char)}
    (hsep : ∀ c ∈ sep, P c) (h : ∀ text ∈ texts, ∀ c ∈ text, P c) :
    ∀ c ∈ List.intercalate sep texts, P c := by
  induction texts with
  | nil => exact fun _ hc => absurd hc List.not_mem_nil
  | cons text rest ih =>
    obtain ⟨htext, hrest⟩ := List.forall_mem_cons.1 h
    cases rest with
    | nil => rwa [List.intercalate_singleton]
    | cons next rest =>
      rw [List.intercalate_cons_cons]
      exact List.forall_mem_append.2 ⟨List.forall_mem_append.2 ⟨htext, hsep⟩, ih hrest⟩

theorem isOneLine_intercalate {sep : List Char} {texts : List (List Char)} (hsep : IsOneLine sep)
    (h : ∀ text ∈ texts, IsOneLine text) : IsOneLine (List.intercalate sep texts) :=
  forall_mem_intercalate hsep h

theorem IsOneLine.sublist {a b : List Char} (h : IsOneLine b) (hab : a.Sublist b) : IsOneLine a :=
  fun c hc => h c (hab.subset hc)

theorem ne_return_of_isLineBreak {c : Char} (h : isLineBreak c = false) : c ≠ '\r' := by
  rintro rfl
  exact absurd h (by decide)

/-- A line feed ends the line in front of it. -/
theorem lines_append_feed {line : List Char} (h : IsOneLine line) (rest : List Char) :
    lines (line ++ '\n' :: rest) = line :: lines rest := by
  induction line with
  | nil => exact (lines_cons (by decide) rest).trans (if_pos (by decide))
  | cons c later ih =>
    obtain ⟨hc, hlater⟩ := List.forall_mem_cons.1 h
    rw [List.cons_append, lines_cons (ne_return_of_isLineBreak hc), hc, ih hlater]
    rfl

/-- A text without line breaks is its only line, unless it is empty. -/
theorem lines_of_isOneLine {line : List Char} (h : IsOneLine line) (hne : line ≠ []) :
    lines line = [line] := by
  induction line with
  | nil => exact absurd rfl hne
  | cons c later ih =>
    obtain ⟨hc, hlater⟩ := List.forall_mem_cons.1 h
    rw [lines_cons (ne_return_of_isLineBreak hc), hc]
    by_cases hnil : later = []
    · subst hnil
      rfl
    · rw [ih hlater hnil]
      rfl

/-- Lines put together to a text, with a line feed between any two. -/
def joinLines (ls : List (List Char)) : List Char :=
  List.intercalate ['\n'] ls

theorem joinLines_cons_cons (line next : List Char) (rest : List (List Char)) :
    joinLines (line :: next :: rest) = line ++ '\n' :: joinLines (next :: rest) := by
  simp [joinLines, List.intercalate]

theorem isOneLine_consLine {c : Char} (hc : isLineBreak c = false) {ls : List (List Char)}
    (h : ∀ line ∈ ls, IsOneLine line) : ∀ line ∈ consLine c ls, IsOneLine line := by
  cases ls with
  | nil => exact List.forall_mem_singleton.2 (List.forall_mem_singleton.2 hc)
  | cons line rest =>
    obtain ⟨hline, hrest⟩ := List.forall_mem_cons.1 h
    exact List.forall_mem_cons.2 ⟨List.forall_mem_cons.2 ⟨hc, hline⟩, hrest⟩

/-- The lines of a text have no line breaks. -/
theorem isOneLine_of_mem_lines (s : List Char) : ∀ line ∈ lines s, IsOneLine line := by
  induction s using lines.induct with
  | case1 => simp [lines]
  | case2 rest ih =>
    rw [lines]
    exact List.forall_mem_cons.2 ⟨isOneLine_nil, ih⟩
  | case3 c rest hpair hbreak ih =>
    rw [lines.eq_3 c rest hpair, if_pos hbreak]
    exact List.forall_mem_cons.2 ⟨isOneLine_nil, ih⟩
  | case4 c rest hpair hbreak ih =>
    rw [lines.eq_3 c rest hpair, if_neg hbreak]
    exact isOneLine_consLine (Bool.not_eq_true _ ▸ hbreak) ih

/-! ## Records -/

/-- A record has its line feed at its end, or none. -/
theorem eq_chomp_or_of_mem_records {s record : List Char} (h : record ∈ records s) :
    record = chomp record ∨ record = chomp record ++ ['\n'] := by
  induction s generalizing record with
  | nil => cases h
  | cons c rest ih =>
    rw [records] at h
    by_cases hc : c = '\n'
    · rw [if_pos hc] at h
      rcases List.mem_cons.1 h with rfl | h
      · subst hc
        exact .inr rfl
      · exact ih h
    · rw [if_neg hc] at h
      cases hrecords : records rest with
      | nil =>
        rw [hrecords] at h
        obtain rfl := List.mem_singleton.1 h
        exact .inl (chomp_cons hc []).symm
      | cons first later =>
        rw [hrecords] at h ih
        rcases List.mem_cons.1 h with rfl | h
        · rw [chomp_cons hc, List.cons_append, List.cons.injEq, List.cons.injEq]
          simpa using ih List.mem_cons_self
        · exact ih (List.mem_cons_of_mem first h)

theorem take_consLine (n : Nat) (c : Char) (ls : List (List Char)) :
    (consLine c ls).take (n + 1) = consLine c (ls.take (n + 1)) := by
  cases ls <;> simp [consLine]

theorem records_flatten_take (n : Nat) (s : List Char) :
    records ((records s).take n).flatten = (records s).take n := by
  induction s generalizing n with
  | nil => simp [records]
  | cons c rest ih =>
    cases n with
    | zero => rfl
    | succ n =>
      by_cases hc : c = '\n'
      · simp [records, hc, ih]
      · -- The character joins the first of the records that are taken, so the cut stays where it
        -- is.
        simp only [records, hc, ↓reduceIte, take_consLine, flatten_consLine, ih]

/-- The records of a text up to the first of some kind are the records of what they make up. -/
theorem records_flatten_takeWhile (p : List Char → Bool) (s : List Char) :
    records ((records s).takeWhile p).flatten = (records s).takeWhile p := by
  rw [List.prefix_iff_eq_take.1 (List.takeWhile_prefix p)]
  exact records_flatten_take _ s

end TinyMips.Text
