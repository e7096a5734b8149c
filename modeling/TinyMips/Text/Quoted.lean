import TinyMips.Text.Printable

/-!
# Quoted text

Messages show text between quotation marks, on one line and in printable characters only.
Apostrophes are the marks, unless the text has an apostrophe and no double quotation mark. The
main statement is that a quoted text has no unprintable character (`isPrintable_of_mem_quote`).
-/

namespace TinyMips.Text

/-- The mark that is put around quoted text if nothing speaks against it. -/
def apostrophe : Char := '\x27'

/-- The mark that is put around quoted text in the place of the apostrophe. -/
def doubleMark : Char := '\x22'

/-- The character that starts an escape sequence. -/
def backslash : Char := '\\'

/-- The lower-case digits of `n` in base sixteen, cut or filled up to `width` of them. -/
def hexDigits (width n : Nat) : List Char :=
  match width with
  | 0 => []
  | width + 1 => hexDigits width (n / 16) ++ [Nat.digitChar (n % 16)]

/-- The escape sequence of a character by its code point, with as many digits as it needs. -/
def escapeCodePoint (n : Nat) : List Char :=
  if n ≤ 0xff then backslash :: 'x' :: hexDigits 2 n
  else if n ≤ 0xffff then backslash :: 'u' :: hexDigits 4 n
  else backslash :: 'U' :: hexDigits 8 n

/-- How a character is written between two marks. -/
def escape (mark c : Char) : List Char :=
  if c = mark ∨ c = backslash then [backslash, c]
  else if c = '\n' then [backslash, 'n']
  else if c = '\r' then [backslash, 'r']
  else if c = '\t' then [backslash, 't']
  else if isPrintable c then [c]
  else escapeCodePoint c.toNat

/-- The mark to put around a text. -/
def markFor (s : List Char) : Char :=
  if apostrophe ∈ s ∧ doubleMark ∉ s then doubleMark else apostrophe

/-- The text between its marks. -/
def quote (s : List Char) : List Char :=
  let mark := markFor s
  mark :: (s.flatMap (escape mark) ++ [mark])

/-- The text between its marks. -/
def quoted (s : String) : String :=
  String.ofList (quote s.toList)

example : quoted "plain" = "'plain'" := by decide

example : quoted "it's" = "\"it's\"" := by decide

example : quoted "it's \"so\"\n" = "'it\\'s \"so\"\\n'" := by decide

example : quoted "\u00a0\u200b" = "'\\xa0\\u200b'" := by decide +kernel

theorem isPrintable_digitChar {n : Nat} (h : n < 16) : isPrintable (Nat.digitChar n) = true := by
  have all : ∀ k : Fin 16, isPrintable (Nat.digitChar k.val) = true := by decide
  exact all ⟨n, h⟩

theorem isPrintable_of_mem_hexDigits {width n : Nat} {c : Char} (h : c ∈ hexDigits width n) :
    isPrintable c = true := by
  induction width generalizing n with
  | zero => simp [hexDigits] at h
  | succ width ih =>
    rcases List.mem_append.1 h with h | h
    · exact ih h
    · rw [List.mem_singleton.1 h]
      exact isPrintable_digitChar (Nat.mod_lt _ (by decide))

theorem isPrintable_of_mem_escapeCodePoint {n : Nat} {c : Char} (h : c ∈ escapeCodePoint n) :
    isPrintable c = true := by
  have digits : ∀ {width : Nat} {kind : Char}, isPrintable kind = true →
      c ∈ backslash :: kind :: hexDigits width n → isPrintable c = true := by
    intro width kind hk hc
    simp only [List.mem_cons] at hc
    rcases hc with rfl | rfl | hc
    · decide
    · exact hk
    · exact isPrintable_of_mem_hexDigits hc
  unfold escapeCodePoint at h
  split at h
  · exact digits (by decide) h
  · split at h
    · exact digits (by decide) h
    · exact digits (by decide) h

theorem isPrintable_of_mem_escape {mark c d : Char} (hm : isPrintable mark = true)
    (h : d ∈ escape mark c) : isPrintable d = true := by
  unfold escape at h
  split at h
  · rename_i special
    simp only [List.mem_cons, List.not_mem_nil, or_false] at h
    rcases h with rfl | rfl
    · decide
    · rcases special with rfl | rfl
      · exact hm
      · decide
  split at h
  · simp only [List.mem_cons, List.not_mem_nil, or_false] at h
    rcases h with rfl | rfl <;> decide
  split at h
  · simp only [List.mem_cons, List.not_mem_nil, or_false] at h
    rcases h with rfl | rfl <;> decide
  split at h
  · simp only [List.mem_cons, List.not_mem_nil, or_false] at h
    rcases h with rfl | rfl <;> decide
  split at h
  · rename_i shown
    rw [List.mem_singleton.1 h]
    exact shown
  · exact isPrintable_of_mem_escapeCodePoint h

theorem isPrintable_markFor (s : List Char) : isPrintable (markFor s) = true := by
  unfold markFor
  split <;> decide

/-- Quoted text has printable characters only. -/
theorem isPrintable_of_mem_quote {s : List Char} {c : Char} (h : c ∈ quote s) :
    isPrintable c = true := by
  simp only [quote, List.mem_cons, List.mem_append, List.mem_flatMap, List.not_mem_nil,
    or_false] at h
  rcases h with rfl | ⟨d, -, hd⟩ | rfl
  · exact isPrintable_markFor s
  · exact isPrintable_of_mem_escape (isPrintable_markFor s) hd
  · exact isPrintable_markFor s

end TinyMips.Text
