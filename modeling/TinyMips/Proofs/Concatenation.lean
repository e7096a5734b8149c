import TinyMips.Proofs.Isolation

/-!
# Programs in two parts

A text that ends with a line feed can be put in front of a program, and the whole is run as its two
parts are, one after the other. The lines of the whole are those of the parts
(`Text.lines_append`), and those of the second part hold what they hold alone, under greater numbers
(`Item.ofLines_add`). A number is told of the lines that cannot be read and of no others, so each
line of the second part fares as it does alone, and only such a line is told in other words
(`Machine.stages_moved`). The main statement puts this together (`Machine.execute_append`).
-/

namespace TinyMips

/-! ## Lines of a text -/

namespace Text

/-- Whether a text is empty or ends with a line feed. -/
def EndsLine (s : List Char) : Prop :=
  s = [] ∨ s.getLast? = some '\n'

instance (s : List Char) : Decidable (EndsLine s) :=
  inferInstanceAs (Decidable (_ ∨ _))

theorem EndsLine.tail {c : Char} {rest : List Char} (h : EndsLine (c :: rest)) :
    EndsLine rest := by
  cases rest with
  | nil => exact .inl rfl
  | cons d later =>
    rcases h with h | h
    · cases h
    · rw [List.getLast?_cons_cons] at h
      exact .inr h

theorem EndsLine.eq_feed {c : Char} (h : EndsLine [c]) : c = '\n' := by
  rcases h with h | h
  · cases h
  · exact Option.some.inj h

/-- What follows a text that ends its last line does not make a pair of a carriage return and a line
feed of its first two characters. -/
theorem EndsLine.append_ne_pair {c : Char} {rest : List Char} (h : EndsLine (c :: rest))
    (hpair : ∀ later, c = '\r' → rest = '\n' :: later → False) (b : List Char) :
    ∀ later, c = '\r' → rest ++ b = '\n' :: later → False := by
  intro later hc hrest
  cases rest with
  | nil => exact absurd (hc.symm.trans h.eq_feed) (by decide)
  | cons d more =>
    obtain ⟨rfl, -⟩ := List.cons.inj hrest
    exact hpair more hc rfl

theorem lines_ne_nil {s : List Char} (h : s ≠ []) : lines s ≠ [] := by
  fun_cases lines s with
  | case1 => exact absurd rfl h
  | case2 rest => exact List.cons_ne_nil _ _
  | case3 c rest => exact List.cons_ne_nil _ _
  | case4 c rest => cases lines rest <;> exact List.cons_ne_nil _ _

theorem consLine_append (c : Char) {a : List (List Char)} (h : a ≠ []) (b : List (List Char)) :
    consLine c (a ++ b) = consLine c a ++ b := by
  cases a with
  | nil => exact absurd rfl h
  | cons line rest => rfl

/-- The lines of two texts in a row are those of both, if the first ends its last line. -/
theorem lines_append {a : List Char} (ha : EndsLine a) (b : List Char) :
    lines (a ++ b) = lines a ++ lines b := by
  induction a using lines.induct with
  | case1 => rfl
  | case2 rest ih =>
    simp only [List.cons_append, lines]
    exact congrArg ([] :: ·) (ih ha.tail.tail)
  | case3 c rest hpair hbreak ih =>
    have pair := ha.append_ne_pair hpair b
    rw [List.cons_append, lines.eq_3 c (rest ++ b) pair, lines.eq_3 c rest hpair, if_pos hbreak,
      if_pos hbreak, ih ha.tail, List.cons_append]
  | case4 c rest hpair hbreak ih =>
    have pair := ha.append_ne_pair hpair b
    -- The last character is a line feed, so there is a line behind this character to join.
    have more : rest ≠ [] := by
      rintro rfl
      obtain rfl := ha.eq_feed
      exact hbreak (by decide)
    rw [List.cons_append, lines.eq_3 c (rest ++ b) pair, lines.eq_3 c rest hpair, if_neg hbreak,
      if_neg hbreak, ih ha.tail, consLine_append c (lines_ne_nil more)]

end Text

/-! ## Lines under other numbers -/

/-- The malformed line as it is with `n` lines more in front of it. -/
def Malformed.moved (n : Int) (line : Malformed) : Malformed :=
  { line with line := line.line + n }

namespace Item

/-- The line as it is in a program with `n` lines more in front of it. -/
def moved (n : Int) : Item → Item
  | .statement s => .statement { s with line := s.line + n }
  | .malformed line => .malformed (line.moved n)

theorem ofLine?_add (first n : Int) (text : List Char) :
    ofLine? (first + n) text = (ofLine? first text).map (moved n) := by
  unfold ofLine? Statement.ofLine?
  by_cases htail : Statement.isTail (Text.expandTabs text) = true
  · simp only [htail, ↓reduceIte, Option.map_none]
  · simp only [htail, Bool.false_eq_true, ↓reduceIte]
    cases Statement.readParts? (Text.expandTabs text) <;> rfl

/-- Lines hold the same whatever number they start from, up to their numbers. -/
theorem ofLines_add (first n : Int) (ls : List (List Char)) :
    ofLines (first + n) ls = (ofLines first ls).map (moved n) := by
  induction ls generalizing first with
  | nil => rfl
  | cons text rest ih =>
    have next : first + n + 1 = first + 1 + n := by omega
    rw [ofLines, ofLines, List.map_append, ofLine?_add, next, ih]
    cases ofLine? first text <;> rfl

theorem ofSource_append {a : String} (ha : Text.EndsLine a.toList) (b : String) :
    ofSource (a ++ b) =
      ofSource a ++ (ofSource b).map (moved (Text.lines a.toList).length) := by
  rw [ofSource, String.toList_append, Text.lines_append ha, ofLines_append, ofLines_add]
  rfl

end Item

/-- The stage as it is in a program with `n` lines more in front of its line: a line that cannot be
read is told with its number there, and all else is the same. -/
def Stage.moved (n : Int) (stage : Stage) : Stage where
  item := stage.item.moved n
  fate := stage.fate
  events :=
    match stage.item with
    | .statement _ => stage.events
    | .malformed line =>
      [.note (.malformed (line.moved n)), .report (.error (line.moved n).message)]

namespace Machine

variable {m : Machine}

theorem stage_moved (m : Machine) (n : Int) (item : Item) :
    m.stage (item.moved n) = (m.stage item).moved n := by
  cases item <;> rfl

theorem machine_runItem_moved (m : Machine) (n : Int) (item : Item) :
    (m.runItem (item.moved n)).machine = (m.runItem item).machine := by
  cases item <;> rfl

theorem result_runItem_moved (m : Machine) (n : Int) (item : Item) :
    (m.runItem (item.moved n)).result = (m.runItem item).result := by
  cases item <;> rfl

/-- A program under other numbers leaves the same machine and ends alike. -/
theorem runItems_moved (m : Machine) (n : Int) (items : List Item) :
    (m.runItems (items.map (Item.moved n))).machine = (m.runItems items).machine ∧
      (m.runItems (items.map (Item.moved n))).result = (m.runItems items).result := by
  induction items generalizing m with
  | nil => exact ⟨rfl, rfl⟩
  | cons item rest ih =>
    rw [List.map_cons, runItems, runItems]
    cases h : (m.runItem item).result with
    | error halt =>
      rw [Run.andThen_of_error ((result_runItem_moved m n item).trans h), Run.andThen_of_error h]
      exact ⟨machine_runItem_moved m n item, rfl⟩
    | ok failures =>
      rw [Run.andThen_of_ok ((result_runItem_moved m n item).trans h), Run.andThen_of_ok h,
        machine_runItem_moved]
      obtain ⟨machine, result⟩ := ih (m.runItem item).machine
      exact ⟨machine, congrArg (Except.map (failures + ·)) result⟩

/-- The stages of a program under other numbers are those that it has, moved. -/
theorem stages_moved (m : Machine) (n : Int) (items : List Item) :
    m.stages (items.map (Item.moved n)) = (m.stages items).map (Stage.moved n) := by
  induction items generalizing m with
  | nil => rfl
  | cons item rest ih =>
    rw [List.map_cons]
    cases h : (m.runItem item).result with
    | error halt =>
      rw [stages_cons_of_error ((result_runItem_moved m n item).trans h), stages_cons_of_error h,
        stage_moved]
      rfl
    | ok failures =>
      rw [stages_cons_of_ok ((result_runItem_moved m n item).trans h), stages_cons_of_ok h,
        stage_moved, machine_runItem_moved, ih]
      rfl

/-- **Programs can be run in parts.** Let a program be put together of two texts, the first of
which is empty or ends with a line feed. If the first is not run to its end, the whole is run as the
first is. If it is, the whole leaves the machine that the second leaves on the machine that the
first has left, it ends as the second does, the failures of both being counted, and what is seen of
it is what is seen of the first and then the stages of the second, moved by the number of lines of
the first. -/
theorem execute_append (m : Machine) (a b : String) (ha : Text.EndsLine a.toList) :
    let whole := m.execute (a ++ b)
    let first := m.execute a
    let second := first.machine.execute b
    let stages := first.machine.stages (Item.ofSource b)
    let moved := stages.map (Stage.moved (Text.lines a.toList).length)
    (∀ halt, first.result = .error halt → whole = first) ∧
      ∀ failures, first.result = .ok failures →
        whole.machine = second.machine ∧
        whole.result = second.result.map (failures + ·) ∧
        second.events = stages.flatMap Stage.events ∧
        whole.events = first.events ++ moved.flatMap Stage.events ∧
        ∀ layout, Event.output layout whole.events =
          Event.output layout first.events ++
            Event.output layout (moved.flatMap Stage.events) := by
  intro whole first second stages moved
  have hwhole : whole = first.andThen fun m failures =>
      (m.runItems ((Item.ofSource b).map (Item.moved (Text.lines a.toList).length))).map
        (failures + ·) := by
    change m.runItems (Item.ofSource (a ++ b)) = _
    rw [Item.ofSource_append ha, runItems_append]
    rfl
  refine ⟨fun halt h => ?_, fun failures h => ?_⟩
  · rw [hwhole, Run.andThen_of_error h, ← h]
  · rw [Run.andThen_of_ok h] at hwhole
    obtain ⟨machine, result⟩ := first.machine.runItems_moved (Text.lines a.toList).length
      (Item.ofSource b)
    have events : whole.events = first.events ++ moved.flatMap Stage.events := by
      rw [hwhole]
      change first.events ++ (first.machine.runItems _).events = _
      rw [events_runItems, stages_moved]
    refine ⟨?_, ?_, events_runItems _ _, events, fun layout => ?_⟩
    · rw [hwhole]
      exact machine
    · rw [hwhole]
      exact congrArg (Except.map (failures + ·)) result
    · rw [events, Event.output_append]

/-- Two lines in front, the first of which ends with a carriage return and a line feed, and a line
behind them that cannot be read: it is the first of its part and the third of the whole. -/
theorem execute_append_malformed_line :
    let a := "addi $8,$0,7\r\n1 oops\n"
    let b := "2 oops\nadd $9,$8,$8"
    let first := zero.execute a
    let stages := first.machine.stages (Item.ofSource b)
    Text.EndsLine a.toList ∧ first.result = .ok 1 ∧
      (first.machine.execute b).result = .ok 1 ∧ (zero.execute (a ++ b)).result = .ok 2 ∧
      (zero.execute (a ++ b)).machine = (first.machine.execute b).machine ∧
      (zero.execute (a ++ b)).events =
        first.events ++ (stages.map (Stage.moved 2)).flatMap Stage.events ∧
      .report (.error "Line 1: cannot parse '2 oops'") ∈ stages.flatMap Stage.events ∧
      .report (.error "Line 3: cannot parse '2 oops'") ∈
        (stages.map (Stage.moved 2)).flatMap Stage.events := by
  intro a b first stages
  have ends : Text.EndsLine a.toList := by decide
  have hfirst : first.result = .ok 1 := by decide +kernel
  have count : (Text.lines a.toList).length = 2 := by decide
  obtain ⟨machine, result, -, events, -⟩ := (execute_append zero a b ends).2 1 hfirst
  rw [count] at events
  have hsecond : (first.machine.execute b).result = .ok 1 := by decide +kernel
  have hwhole := result.trans (congrArg (Except.map (1 + ·)) hsecond)
  exact ⟨ends, hfirst, hsecond, hwhole, machine, events, by decide +kernel, by decide +kernel⟩

end Machine

end TinyMips
