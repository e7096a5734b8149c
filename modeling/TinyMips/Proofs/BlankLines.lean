import TinyMips.Proofs.Concatenation
import TinyMips.Proofs.Entered
import TinyMips.Proofs.LineGrammar
import TinyMips.Proofs.UnknownRegisters

/-!
# Lines of white space

A line may have white space and nothing else. Such a line is passed over if it is made of spaces,
tabs, line feeds and carriage returns; one with white space of another kind, such as a no-break
space, is refused as a line that cannot be read, and what is quoted of it is the empty text
(`Statement.ofLine?_of_isWhite`). A run therefore depends on the other lines alone, but for the
lines of white space that it refuses, each of which counts as a failure (`Item.runLike_solid`). The
main statement says this of programs and of sessions (`Machine.passesWhite`).
-/

namespace TinyMips

/-! ## White space -/

namespace Text

/-- Whether a line has white space of whatever kind and nothing else. -/
def IsWhite (text : List Char) : Prop :=
  strip text = []

instance : DecidablePred IsWhite := fun text => inferInstanceAs (Decidable (strip text = []))

/-- Whether a line has only spaces, tabs, line feeds and carriage returns. -/
def IsPlain (text : List Char) : Prop :=
  ∀ c ∈ text, c ∈ [' ', '\t', '\n', '\r']

instance : DecidablePred IsPlain :=
  List.decidableBAll _

/-- The lines that do not consist of white space. -/
def solid (ls : List (List Char)) : List (List Char) :=
  ls.filter fun text => ¬IsWhite text

/-- How many lines have white space only, and not only of the plain kinds. -/
def countOdd (ls : List (List Char)) : Nat :=
  ls.countP fun text => IsWhite text ∧ ¬IsPlain text

variable {text : List Char}

theorem isWhite_iff : IsWhite text ↔ ∀ c ∈ text, isBlank c = true := by
  constructor
  · intro h
    obtain ⟨front, back, hfront, hback, htext⟩ := (isStripped_strip text).around
    rw [show strip text = [] from h] at htext
    rw [htext]
    exact List.forall_mem_append.2 ⟨hfront, hback⟩
  · intro h
    rw [IsWhite, strip, stripFront, List.dropWhile_eq_nil_iff.2 h]
    rfl

/-- What is asked of all characters of a text with its tabs written as spaces is asked of the
characters of the text, where a tab stands for a space. -/
theorem forall_mem_expandTabsFrom_iff {P : Char → Prop} (column : Nat) (s : List Char) :
    (∀ c ∈ expandTabsFrom column s, P c) ↔ ∀ c ∈ s, P (if c = '\t' then ' ' else c) := by
  induction s generalizing column with
  | nil => simp [expandTabsFrom]
  | cons c rest ih =>
    rw [expandTabsFrom, List.forall_mem_cons]
    by_cases hc : c = '\t'
    · -- A tab stands for at least one space.
      have spaces : tabWidth - column % tabWidth ≠ 0 :=
        Nat.sub_ne_zero_of_lt (Nat.mod_lt _ (by decide))
      rw [if_pos hc, if_pos hc, List.forall_mem_append, ih]
      simp [spaces]
    · rw [if_neg hc, if_neg hc, List.forall_mem_cons, ih]

/-- Gaps are what is plain, once tabs are written as spaces. -/
theorem isGap_expandTabs_iff : IsGap (expandTabs text) ↔ IsPlain text := by
  rw [IsGap, expandTabs, forall_mem_expandTabsFrom_iff]
  refine forall₂_congr fun c _ => ?_
  by_cases hc : c = '\t'
  · simp [hc, isGap]
  · simp [hc, isGap, or_assoc]

theorem isWhite_expandTabs (h : IsWhite text) : IsWhite (expandTabs text) := by
  rw [isWhite_iff, expandTabs, forall_mem_expandTabsFrom_iff]
  intro c hc
  split
  case isTrue => decide
  case isFalse => exact isWhite_iff.1 h c hc

theorem isAsciiLetter_of_isBlank {c : Char} (h : isBlank c = true) : isAsciiLetter c = false := by
  refine Bool.eq_false_iff.2 fun hletter => ?_
  simp only [isBlank, isAsciiLetter, Bool.or_eq_true, Bool.and_eq_true, decide_eq_true_eq,
    beq_iff_eq, Char.le_def, UInt32.le_iff_toNat_le] at h hletter
  simp only [Char.toNat] at h
  have a : 'a'.val.toNat = 97 := rfl
  have z : 'z'.val.toNat = 122 := rfl
  have A : 'A'.val.toNat = 65 := rfl
  have Z : 'Z'.val.toNat = 90 := rfl
  omega

end Text

/-! ## Reading lines of white space -/

namespace Statement

variable {text opcode operands : List Char}

/-- There is no mnemonic in white space. -/
theorem Written.not_isWhite (h : Written opcode operands text) : ¬Text.IsWhite text := by
  obtain ⟨gap, rest, -, ⟨first, later, hfirst, -, rfl⟩, -, -, rfl⟩ := h
  intro hwhite
  have blank := Text.isWhite_iff.1 hwhite first (by simp)
  rw [Text.isAsciiLetter_of_isBlank blank] at hfirst
  cases hfirst

/-- There is no comment in white space, so it is a tail if it is a gap. -/
theorem isTail_iff_of_isWhite (h : Text.IsWhite text) : IsTail text ↔ Text.IsGap text := by
  constructor
  · rintro ⟨gap, comment, hgap, rfl | ⟨words, after, -, -, rfl⟩, rfl⟩
    · rwa [List.append_nil]
    · exact absurd (Text.isWhite_iff.1 h '#' (by simp)) (by decide)
  · exact fun hgap => ⟨text, [], hgap, .inl rfl, (List.append_nil text).symm⟩

/-- A line of white space is passed over if it is plain. If it is not, it is refused, and nothing is
quoted of it. -/
theorem ofLine?_of_isWhite (line : Int) (h : Text.IsWhite text) :
    ofLine? line text = if Text.IsPlain text then .ok none else .error ⟨line, ""⟩ := by
  have white := Text.isWhite_expandTabs h
  have tail : IsTail (Text.expandTabs text) ↔ Text.IsPlain text :=
    (isTail_iff_of_isWhite white).trans Text.isGap_expandTabs_iff
  split
  case isTrue hplain => exact ofLine?_eq_none_iff.2 (tail.2 hplain)
  case isFalse hplain =>
    refine ofLine?_eq_error_iff.2 ⟨⟨rfl, ?_⟩, mt tail.1 hplain, fun _ _ hwritten =>
      hwritten.not_isWhite white⟩
    exact Text.isStripped_iff.2 (Eq.symm h)

end Statement

/-- What a line of white space holds. -/
theorem Item.ofLine?_of_isWhite (line : Int) {text : List Char} (h : Text.IsWhite text) :
    ofLine? line text = if Text.IsPlain text then none else some (.malformed ⟨line, ""⟩) := by
  rw [ofLine?, Statement.ofLine?_of_isWhite line h]
  by_cases hplain : Text.IsPlain text <;> simp [hplain]

/-- Lines of white space are no commands. -/
theorem Command.ofLine_of_isWhite {text : List Char} (h : Text.IsWhite text) :
    ofLine text = .run := by
  rw [ofLine, show Text.strip text = [] from h]
  decide

theorem Command.beforeQuit_cons {text : List Char} (h : ofLine text ≠ .quit)
    (rest : List (List Char)) : beforeQuit (text :: rest) = text :: beforeQuit rest :=
  List.takeWhile_cons_of_pos (by simpa using h)

/-- A line of a program holds all that is found under its number. -/
theorem Item.filter_ofLines {first : Int} {ls : List (List Char)} {i : Nat} {text : List Char}
    (h : ls[i]? = some text) :
    (ofLines first ls).filter (·.line = first + i) = (ofLine? (first + i) text).toList := by
  induction ls generalizing first i with
  | nil => cases h
  | cons head rest ih =>
    rw [ofLines, List.filter_append]
    cases i with
    | zero =>
      obtain rfl := Option.some.inj h
      have own : (ofLine? first head).toList.filter (·.line = first + (0 : Nat)) =
          (ofLine? first head).toList := List.filter_eq_self.2 fun item hitem => by
        simp [line_of_ofLine? (Option.mem_toList.1 hitem)]
      have others : (ofLines (first + 1) rest).filter (·.line = first + (0 : Nat)) = [] :=
        List.filter_eq_nil_iff.2 fun item hitem => by
          have := line_of_mem_ofLines hitem
          simp only [decide_eq_true_eq]
          omega
      rw [own, others, List.append_nil]
      simp
    | succ i =>
      have next : first + (i + 1 : Nat) = first + 1 + i := by omega
      have others : (ofLine? first head).toList.filter (·.line = first + (i + 1 : Nat)) = [] :=
        List.filter_eq_nil_iff.2 fun item hitem => by
          have := line_of_ofLine? (Option.mem_toList.1 hitem)
          simp only [decide_eq_true_eq]
          omega
      rw [others, List.nil_append, next, ih h]

/-! ## Running lines of white space -/

namespace Run.EndsLike

variable {ε α : Type} {a b c : Run ε α}

theorem symm (h : a.EndsLike b) : b.EndsLike a :=
  ⟨h.machine.symm, h.result.symm⟩

theorem trans (h : a.EndsLike b) (h' : b.EndsLike c) : a.EndsLike c :=
  ⟨h.machine.trans h'.machine, h.result.trans h'.result⟩

/-- Answers that are changed alike were alike, if nothing is lost by the change. -/
theorem of_map {β : Type} {f : α → β} (hf : Function.Injective f)
    (h : (a.map f).EndsLike (b.map f)) : a.EndsLike b := by
  refine ⟨h.machine, ?_⟩
  have results : a.result.map f = b.result.map f := h.result
  cases ha : a.result <;> cases hb : b.result <;> rw [ha, hb] at results
  case ok.ok => exact congrArg Except.ok (hf (Except.ok.inj results))
  case error.error => exact congrArg Except.error (Except.error.inj results)
  all_goals cases results

end Run.EndsLike

namespace Text

variable {text : List Char}

theorem solid_cons_of_isWhite (h : IsWhite text) (rest : List (List Char)) :
    solid (text :: rest) = solid rest :=
  List.filter_cons_of_neg (by simp [h])

theorem solid_cons_of_not_isWhite (h : ¬IsWhite text) (rest : List (List Char)) :
    solid (text :: rest) = text :: solid rest :=
  List.filter_cons_of_pos (by simp [h])

theorem countOdd_cons (text : List Char) (rest : List (List Char)) :
    countOdd (text :: rest) = countOdd rest + countOdd [text] := by
  simp [countOdd, List.countP_cons]

theorem countOdd_of_not_isWhite (h : ¬IsWhite text) : countOdd [text] = 0 := by
  simp [countOdd, h]

end Text

namespace Machine

variable {text : List Char}

/-- A line of white space is answered with nothing, or with words about a line that cannot be
read. -/
theorem answer?_of_isWhite (m : Machine) (line : Int) (h : Text.IsWhite text) :
    m.answer? line text =
      some (if Text.IsPlain text then .done m 0 else m.rejectLine ⟨line, ""⟩) := by
  rw [answer?, Command.ofLine_of_isWhite h, runLine, Statement.ofLine?_of_isWhite line h]
  by_cases hplain : Text.IsPlain text <;> simp [hplain]

/-- What is reported in a session in reply to a line of white space. -/
theorem reply_of_isWhite {m : Machine} {line : Int} {records : List (List Char)} {i : Nat}
    {reply : List Report} (htext : records[i]? = some text) (h : Text.IsWhite text)
    (hreply : (m.replies line records)[i]? = some reply) :
    reply = if Text.IsPlain text then []
      else [.error ("Line " ++ toString (line + i) ++ ": cannot parse ''")] := by
  induction records generalizing m line i with
  | nil => cases htext
  | cons head rest ih =>
    rw [replies] at hreply
    cases i with
    | zero =>
      obtain rfl := Option.some.inj htext
      rw [answer?_of_isWhite m line h] at hreply
      obtain rfl := Option.some.inj hreply
      rw [show line + (0 : Nat) = line from Int.add_zero line]
      split
      case isTrue => rfl
      case isFalse =>
        change [Report.error (Malformed.message ⟨line, ""⟩)] = _
        rw [Malformed.message, String.append_assoc]
        rfl
    | succ i =>
      have next : line + (i + 1 : Nat) = line + 1 + i := by omega
      rw [next]
      split at hreply
      case _ => cases hreply
      case _ run _ =>
        rw [List.getElem?_cons_succ] at hreply
        split at hreply
        case _ => exact ih htext hreply
        case _ => cases hreply

end Machine

namespace Item

/-- Whether two lists of lines leave the same machine and come to the same end wherever they are
run, with `k` failures more in the first. -/
def RunLike (a b : List Item) (k : Nat) : Prop :=
  ∀ m : Machine, (m.runItems a).EndsLike ((m.runItems b).map (· + k))

variable {a b : List Item} {k : Nat} {text : List Char}

/-- Lines do not end alike for another line of white space in front of the first, unless its failure
is counted. -/
theorem RunLike.cons_white (h : RunLike a b k) (line : Int) (hwhite : Text.IsWhite text) :
    RunLike ((ofLine? line text).toList ++ a) b (k + Text.countOdd [text]) := by
  intro m
  rw [ofLine?_of_isWhite line hwhite]
  by_cases hplain : Text.IsPlain text
  · have even : Text.countOdd [text] = 0 := by simp [Text.countOdd, hplain]
    rw [even, if_pos hplain]
    exact h m
  · have odd : Text.countOdd [text] = 1 := by simp [Text.countOdd, hwhite, hplain]
    rw [odd, if_neg hplain]
    have sum : (1 + ·) ∘ (· + k) = (· + (k + 1)) := funext fun n => Nat.add_comm 1 (n + k)
    have counted := (h m).map (1 + ·)
    rw [Run.map_map, sum] at counted
    exact .after counted _

/-- They do for any line in front of both, whatever its numbers are. -/
theorem RunLike.cons (h : RunLike a b k) (n n' : Int) (text : List Char) :
    RunLike ((ofLine? n text).toList ++ a) ((ofLine? n' text).toList ++ b) k := by
  intro m
  have renumbered : (ofLine? (n' + (n - n')) text).toList =
      (ofLine? n' text).toList.map (moved (n - n')) := by
    rw [ofLine?_add]
    cases ofLine? n' text <;> rfl
  rw [show n' + (n - n') = n by omega] at renumbered
  obtain ⟨machine, result⟩ := m.runItems_moved (n - n') (ofLine? n' text).toList
  rw [← renumbered] at machine result
  rw [Machine.runItems_append, Machine.runItems_append, Run.andThen_map]
  refine Run.EndsLike.andThen ⟨machine, result⟩ fun m first => ?_
  have goesOn := (h m).map (first + ·)
  simpa only [Run.map_map, Function.comp_def, Nat.add_assoc] using goesOn

/-- Lines are run like those of them that are not white space, under whatever numbers. -/
theorem runLike_solid (n n' : Int) (ls : List (List Char)) :
    RunLike (ofLines n ls) (ofLines n' (Text.solid ls)) (Text.countOdd ls) := by
  induction ls generalizing n n' with
  | nil => exact fun m => .refl _
  | cons text rest ih =>
    rw [ofLines, Text.countOdd_cons]
    by_cases h : Text.IsWhite text
    · rw [Text.solid_cons_of_isWhite h]
      exact (ih (n + 1) n').cons_white n h
    · rw [Text.solid_cons_of_not_isWhite h, Text.countOdd_of_not_isWhite h, ofLines]
      exact (ih (n + 1) (n' + 1)).cons n n' text

/-- So are lines that are entered, up to the end of the session. -/
theorem runLike_solid_records (n n' : Int) (records : List (List Char)) :
    RunLike (ofRecords n records) (ofRecords n' (Text.solid records))
      (Text.countOdd (Command.beforeQuit records)) := by
  induction records generalizing n n' with
  | nil => exact fun m => .refl _
  | cons text rest ih =>
    by_cases h : Text.IsWhite text
    · have command := Command.ofLine_of_isWhite h
      rw [Command.beforeQuit_cons (by simp [command]), Text.solid_cons_of_isWhite h,
        Text.countOdd_cons]
      simp only [ofRecords, command]
      exact (ih (n + 1) n').cons_white n h
    · rw [Text.solid_cons_of_not_isWhite h, ofRecords, ofRecords]
      cases hcommand : Command.ofLine text with
      | quit =>
        have before : Command.beforeQuit (text :: rest) = [] :=
          List.takeWhile_cons_of_neg (by simp [hcommand])
        rw [before]
        exact fun m => .refl _
      | list =>
        rw [Command.beforeQuit_cons (by simp [hcommand]), Text.countOdd_cons,
          Text.countOdd_of_not_isWhite h]
        exact ih (n + 1) (n' + 1)
      | run =>
        rw [Command.beforeQuit_cons (by simp [hcommand]), Text.countOdd_cons,
          Text.countOdd_of_not_isWhite h]
        exact (ih (n + 1) (n' + 1)).cons n n' text

/-- Lines that are run like the same others are run alike, the failures of both being counted. -/
theorem RunLike.cross {c : List Item} {l : Nat} (ha : RunLike a c k) (hb : RunLike b c l)
    (m : Machine) : ((m.runItems a).map (· + l)).EndsLike ((m.runItems b).map (· + k)) := by
  have left := (ha m).map (· + l)
  have right := (hb m).map (· + k)
  simp only [Run.map_map, Function.comp_def, Nat.add_assoc] at left right
  exact left.trans (Nat.add_comm k l ▸ right.symm)

end Item

namespace Input

/-- White space makes no difference to whether an input breaks off. -/
theorem breaksOff_iff (input : Input) :
    input.BreaksOff ↔
      BreaksOff { records := Text.solid input.records, ending := input.ending } := by
  refine and_congr_right fun _ => ?_
  simp only [Text.solid, List.mem_filter, decide_eq_true_eq, and_imp]
  refine forall₂_congr fun text _ => ⟨fun h _ => h, fun h hquit => ?_⟩
  have solid : ¬Text.IsWhite text := fun hwhite => by
    rw [Command.ofLine_of_isWhite hwhite] at hquit
    cases hquit
  exact h solid hquit

theorem map_add_close (input : Input) (m : Machine) (failures k : Nat) :
    (input.close m failures).map (· + k) = input.close m (failures + k) := by
  unfold close
  split <;> rfl

end Input

namespace Machine

/-- Programs with the same lines are run alike, up to lines of white space. -/
theorem execute_endsLike (m : Machine) {s t : String}
    (h : Text.solid (Text.lines s.toList) = Text.solid (Text.lines t.toList)) :
    ((m.execute s).map (· + Text.countOdd (Text.lines t.toList))).EndsLike
      ((m.execute t).map (· + Text.countOdd (Text.lines s.toList))) := by
  have left := Item.runLike_solid 1 1 (Text.lines s.toList)
  rw [h] at left
  exact left.cross (Item.runLike_solid 1 1 _) m

/-- So are inputs of sessions that end alike. -/
theorem session_endsLike (m : Machine) {i j : Input} (attended attended' : Bool)
    (hending : i.ending = j.ending) (h : Text.solid i.records = Text.solid j.records) :
    ((m.session i attended).map
        (· + Text.countOdd (Command.beforeQuit j.records))).EndsLike
      ((m.session j attended').map
        (· + Text.countOdd (Command.beforeQuit i.records))) := by
  have left := Item.runLike_solid_records 1 1 i.records
  rw [h] at left
  have lines := left.cross (Item.runLike_solid_records 1 1 j.records) m
  have breaks : i.BreaksOff ↔ j.BreaksOff := by
    rw [i.breaksOff_iff, j.breaksOff_iff, h, hending]
  have ends (input : Input) (isInteractive : Bool) (k : Nat) :
      ((m.session input isInteractive).map (· + k)).EndsLike
        (((m.runItems (Item.ofRecords 1 input.records)).map (· + k)).andThen input.close) := by
    have closes := (m.sessionFrom_endsLike isInteractive input.ending 1 input.records).map (· + k)
    rw [Run.andThen_map] at closes
    simp only [Input.map_add_close] at closes
    rw [Run.map_andThen]
    exact closes
  have same : (i.close : Machine → Nat → Run Halt Nat) = j.close := by
    funext m failures
    simp only [Input.close, breaks]
  have closed := lines.andThen fun m failures => Run.EndsLike.refl (j.close m failures)
  rw [← same] at closed
  exact (ends i attended _).trans (closed.trans (same ▸ (ends j attended' _).symm))

/-- A text of white space, put as lines of its own between two parts of a program. -/
theorem execute_insert (m : Machine) {a w : String} (ha : Text.EndsLine a.toList)
    (hw : Text.IsWhite w.toList) (b : String) :
    (m.execute (a ++ w ++ "\n" ++ b)).EndsLike
      ((m.execute (a ++ b)).map (· + Text.countOdd (Text.lines (w ++ "\n").toList))) := by
  have ends : Text.EndsLine (w ++ "\n").toList := .inr (by simp)
  have whole : Text.lines (a ++ w ++ "\n" ++ b).toList =
      Text.lines a.toList ++ (Text.lines (w ++ "\n").toList ++ Text.lines b.toList) := by
    rw [← Text.lines_append ends, ← Text.lines_append ha]
    simp
  have parts : Text.lines (a ++ b).toList = Text.lines a.toList ++ Text.lines b.toList := by
    rw [String.toList_append, Text.lines_append ha]
  have white : ∀ text ∈ Text.lines (w ++ "\n").toList, Text.IsWhite text := fun text htext => by
    have blank : ∀ c ∈ (w ++ "\n").toList, Text.isBlank c = true := by
      rw [String.toList_append, List.forall_mem_append]
      exact ⟨Text.isWhite_iff.1 hw, List.all_eq_true.1 rfl⟩
    exact Text.isWhite_iff.2 (Text.forall_mem_lines blank text htext)
  have none_solid : Text.solid (Text.lines (w ++ "\n").toList) = [] :=
    List.filter_eq_nil_iff.2 fun text htext => by simpa using white text htext
  have same : Text.solid (Text.lines (a ++ w ++ "\n" ++ b).toList) =
      Text.solid (Text.lines (a ++ b).toList) := by
    rw [whole, parts]
    simp only [Text.solid, List.filter_append] at none_solid ⊢
    rw [none_solid, List.nil_append]
  have count : Text.countOdd (Text.lines (a ++ w ++ "\n" ++ b).toList) =
      Text.countOdd (Text.lines (w ++ "\n").toList) +
        Text.countOdd (Text.lines (a ++ b).toList) := by
    rw [whole, parts]
    simp only [Text.countOdd, List.countP_append]
    omega
  have inserted := m.execute_endsLike same
  rw [count] at inserted
  refine .of_map (add_left_injective (Text.countOdd (Text.lines (a ++ b).toList))) ?_
  simpa only [Run.map_map, Function.comp_def, Nat.add_assoc] using inserted

/-- What is asked of lines of white space, wherever they come up. -/
structure PassesWhite (m : Machine) : Prop where
  /-- a line of a program holds nothing if it is plain; if not, it cannot be read, and nothing is
  quoted of it -/
  items : ∀ (source : String) (i : Nat) (text : List Char),
    (Text.lines source.toList)[i]? = some text → Text.IsWhite text →
      (Item.ofSource source).filter (·.line = 1 + (i : Int)) =
        if Text.IsPlain text then [] else [.malformed ⟨1 + i, ""⟩]
  /-- nothing is reported in reply to a line of a session if it is plain, and words about a line
  that cannot be read if not -/
  replies : ∀ (input : Input) (i : Nat) (text : List Char) (reply : List Report),
    input.records[i]? = some text → Text.IsWhite text →
      (m.replies 1 input.records)[i]? = some reply →
        reply = if Text.IsPlain text then []
          else [.error ("Line " ++ toString (1 + i : Int) ++ ": cannot parse ''")]
  /-- it leaves the machine as it is, and fails if it is not plain -/
  failures : ∀ (line : Int) (text : List Char), Text.IsWhite text →
    ∃ run, m.answer? line text = some run ∧ run.machine = m ∧
      run.result = .ok (if Text.IsPlain text then 0 else 1)
  /-- programs with the same lines otherwise leave the same machine and come to the same end, where
  the failures of the lines of white space that are not plain come on top -/
  programs : ∀ s t : String,
    Text.solid (Text.lines s.toList) = Text.solid (Text.lines t.toList) →
      ((m.execute s).map (· + Text.countOdd (Text.lines t.toList))).EndsLike
        ((m.execute t).map (· + Text.countOdd (Text.lines s.toList)))
  /-- such lines can be put in front of any line of a program -/
  insertion : ∀ a w b : String, Text.EndsLine a.toList → Text.IsWhite w.toList →
    (m.execute (a ++ w ++ "\n" ++ b)).EndsLike
      ((m.execute (a ++ b)).map (· + Text.countOdd (Text.lines (w ++ "\n").toList)))
  /-- it is so with sessions, up to what ends them -/
  sessions : ∀ (i j : Input) (attended attended' : Bool), i.ending = j.ending →
    Text.solid i.records = Text.solid j.records →
      ((m.session i attended).map (· + Text.countOdd (Command.beforeQuit j.records))).EndsLike
        ((m.session j attended').map (· + Text.countOdd (Command.beforeQuit i.records)))

/-- **Lines of white space are passed over if they are plain.** A line that has white space only is
not seen if it is made of spaces, tabs, line feeds and carriage returns, in programs and in
sessions: nothing is read from it, nothing is reported, and it does not fail, so that it makes no
difference to a run whether it is there. All other lines of white space are refused as lines that
cannot be read; each is told, with nothing between the quotes, and counts as one failure, and apart
from that it makes no difference either. -/
theorem passesWhite (m : Machine) : m.PassesWhite where
  items source i text htext hwhite := by
    rw [Item.ofSource, Item.filter_ofLines htext, Item.ofLine?_of_isWhite _ hwhite]
    split <;> rfl
  replies input i text reply htext hwhite hreply := reply_of_isWhite htext hwhite hreply
  failures line text hwhite := by
    refine ⟨_, m.answer?_of_isWhite line hwhite, ?_⟩
    split <;> exact ⟨rfl, rfl⟩
  programs s t := m.execute_endsLike
  insertion a w b ha hw := m.execute_insert ha hw b
  sessions i j attended attended' := m.session_endsLike attended attended'

/-- A line of a space and a tab is passed over, and one of a no-break space fails. -/
theorem passesWhite_no_break_space :
    let plain := "addi $8,$0,7\n \t\nadd $9,$8,$8"
    let odd := "addi $8,$0,7\n\u00a0\nadd $9,$8,$8"
    (Item.ofSource plain).filter (·.line = 2) = [] ∧
      (Item.ofSource odd).filter (·.line = 2) = [.malformed ⟨2, ""⟩] ∧
      (zero.execute plain).result = .ok 0 ∧
      (zero.execute odd).result = .ok 1 ∧
      (zero.execute odd).machine = (zero.execute plain).machine := by
  intro plain odd
  have without : (zero.execute "addi $8,$0,7\nadd $9,$8,$8").result = .ok 0 := by decide +kernel
  have hplain := zero.passesWhite.insertion "addi $8,$0,7\n" " \t" "add $9,$8,$8" (by decide)
    (by decide)
  have hodd := zero.passesWhite.insertion "addi $8,$0,7\n" "\u00a0" "add $9,$8,$8" (by decide)
    (by decide)
  have even : Text.countOdd (Text.lines (" \t" ++ "\n").toList) = 0 := by decide
  have counted : Text.countOdd (Text.lines ("\u00a0" ++ "\n").toList) = 1 := by decide
  rw [even] at hplain
  rw [counted] at hodd
  refine ⟨zero.passesWhite.items plain 1 " \t".toList (by decide) (by decide),
    zero.passesWhite.items odd 1 "\u00a0".toList (by decide) (by decide), ?_, ?_, ?_⟩
  · exact hplain.result.trans (congrArg (Except.map (· + 0)) without)
  · exact hodd.result.trans (congrArg (Except.map (· + 1)) without)
  · exact hodd.machine.trans hplain.machine.symm

/-- It is not so that every line of white space is passed over: a program of one no-break space has
a line that holds something, and fails. -/
theorem not_all_white_lines_passed_over :
    (zero.execute "\u00a0").result = .ok 1 ∧
      ¬∀ (source : String) (i : Nat) (text : List Char),
        (Text.lines source.toList)[i]? = some text → Text.strip text = [] →
          (Item.ofSource source).filter (·.line = 1 + (i : Int)) = [] := by
  refine ⟨by decide +kernel, fun h => ?_⟩
  have passed := h "\u00a0" 0 "\u00a0".toList (by decide) (by decide)
  exact absurd passed (by decide)

end Machine

end TinyMips
