import TinyMips.Text.Alphanumeric
import TinyMips.Text.Line

/-!
# Control sequences

A text may hold control sequences, by which it sets the colours of a terminal, and links. Of a
control sequence nothing is shown, and of a link only its words. Both start with an escape
character.

A control sequence goes on with an opening bracket, parameters, intermediate characters and one
final character. A link goes on with the fields of its opening, which are parameters and an
address, with its words and with a closing.

The main statement is that a text without escape characters is shown as it is
(`visible_eq_self`).
-/

namespace TinyMips.Text

/-- The character that starts a control sequence or a link. -/
def escapeMark : Char := '\x1b'

/-! ## Control sequences -/

/-- The characters of the parameters of a sequence. -/
def isParameter (c : Char) : Bool :=
  '0' ≤ c && c ≤ '?'

/-- The characters between the parameters and the end of a sequence. -/
def isIntermediate (c : Char) : Bool :=
  ' ' ≤ c && c ≤ '/'

/-- The characters that end a sequence. -/
def isFinal (c : Char) : Bool :=
  '@' ≤ c && c ≤ '~'

/-- What follows the sequence whose parameters a text starts with. -/
def afterControl? (s : List Char) : Option (List Char) :=
  match (s.dropWhile isParameter).dropWhile isIntermediate with
  | c :: rest => if isFinal c then some rest else none
  | [] => none

theorem length_afterControl? {s rest : List Char} (h : afterControl? s = some rest) :
    rest.length < s.length := by
  unfold afterControl? at h
  split at h
  · next c tail hs =>
    split at h
    · obtain rfl := Option.some.inj h
      have inner := (List.dropWhile_sublist isIntermediate (l := s.dropWhile isParameter)).length_le
      have outer := (List.dropWhile_sublist isParameter (l := s)).length_le
      rw [hs, List.length_cons] at inner
      omega
    · cases h
  · cases h

/-! ## Links -/

/-- The characters of a text up to a mark, and what follows the mark. The first character of the
mark may not stand before it. -/
def field? (first : Char) (mark s : List Char) : Option (List Char × List Char) :=
  let rest := s.dropWhile (· ≠ first)
  if (first :: mark).isPrefixOf rest then
    some (s.takeWhile (· ≠ first), rest.drop (first :: mark).length)
  else none

theorem length_field? {first : Char} {mark s run rest : List Char}
    (h : field? first mark s = some (run, rest)) : rest.length ≤ s.length := by
  unfold field? at h
  dsimp only at h
  split at h
  · obtain ⟨-, rfl⟩ := Prod.mk.inj (Option.some.inj h)
    have := (List.dropWhile_sublist (· ≠ first) (l := s)).length_le
    rw [List.length_drop]
    omega
  · cases h

/-- Whether a text is a word. -/
def isWord (s : List Char) : Bool :=
  s ≠ [] && s.all isWordChar

/-- Whether the texts between the equals signs of parameters fit together: a value and the key of
the next parameter have a colon between them, or are both in one word. -/
def areValues : List (List Char) → Bool
  | [] => false
  | [last] => isWord last || (last.getLast? = some ':' && isWord last.dropLast)
  | text :: rest =>
    (match cut (· = ':') text with
      | [both] => isWord both && 2 ≤ both.length
      | [value, key] => isWord value && isWord key
      | _ => false) && areValues rest

/-- Whether a text is made of parameters, which are a key, an equals sign, a value and perhaps a
colon. -/
def areParameters (s : List Char) : Bool :=
  match cut (· = '=') s with
  | [] => true
  | [only] => only.isEmpty
  | key :: values => isWord key && areValues values

/-- The words of the link whose parameters a text starts with, and what follows the link. -/
def link? (s : List Char) : Option (List Char × List Char) :=
  (field? ';' [] s).bind fun (parameters, s) =>
    if areParameters parameters then
      (field? escapeMark ['\\'] s).bind fun (address, s) =>
        if address.isEmpty then none
        else
          (field? escapeMark [']', '8', ';', ';', '\x1b', '\\'] s).bind fun (words, rest) =>
            if words.isEmpty then none else some (words, rest)
    else none

theorem length_link? {s words rest : List Char} (h : link? s = some (words, rest)) :
    rest.length ≤ s.length := by
  obtain ⟨⟨parameters, s₁⟩, h₁, h⟩ := Option.bind_eq_some_iff.1 h
  dsimp only at h
  split at h
  · obtain ⟨⟨address, s₂⟩, h₂, h⟩ := Option.bind_eq_some_iff.1 h
    dsimp only at h
    split at h
    · cases h
    · obtain ⟨⟨words₃, s₃⟩, h₃, h⟩ := Option.bind_eq_some_iff.1 h
      dsimp only at h
      split at h
      · cases h
      · obtain ⟨-, rfl⟩ := Prod.mk.inj (Option.some.inj h)
        exact Nat.le_trans (length_field? h₃)
          (Nat.le_trans (length_field? h₂) (length_field? h₁))
  · cases h

/-! ## What is shown -/

/-- What is shown of the control sequence or link that an escape character starts, and what
follows it. -/
def sequence? : List Char → Option (List Char × List Char)
  | '[' :: s => (afterControl? s).map ([], ·)
  | ']' :: '8' :: ';' :: s => link? s
  | _ => none

theorem length_sequence? {s words rest : List Char} (h : sequence? s = some (words, rest)) :
    rest.length < s.length := by
  unfold sequence? at h
  split at h
  · obtain ⟨tail, ht, h⟩ := Option.map_eq_some_iff.1 h
    obtain ⟨-, rfl⟩ := Prod.mk.inj h
    exact Nat.lt_succ_of_lt (length_afterControl? ht)
  · have := length_link? h
    simp only [List.length_cons]
    omega
  · cases h

/-- The characters that are shown of a text. -/
def visible : List Char → List Char
  | [] => []
  | c :: s =>
    if c = escapeMark then
      match h : sequence? s with
      | some (words, rest) =>
        have := length_sequence? h
        words ++ visible rest
      | none => c :: visible s
    else c :: visible s
termination_by s => s.length

/-- The number of characters that are shown of a text. -/
def shownLength (s : List Char) : Nat :=
  (visible s).length

/-- Whether a text has a control sequence or a link. -/
def hasSequence (s : List Char) : Bool :=
  visible s ≠ s

/-- A text without escape characters is shown as it is. -/
theorem visible_eq_self {s : List Char} (h : escapeMark ∉ s) : visible s = s := by
  induction s with
  | nil => rw [visible]
  | cons c rest ih =>
    rw [List.mem_cons, not_or] at h
    rw [visible, if_neg (Ne.symm h.1), ih h.2]

end TinyMips.Text
