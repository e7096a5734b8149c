import TinyMips.Proofs.DataIndependence
import TinyMips.Proofs.Isolation
import TinyMips.Proofs.LineGrammar

/-!
# The normal form of a program

A program can be written anew from what is announced of it: a line for each statement, with the
mnemonic, one space and the operands (`Item.normalForm`). What is read from a line can be read again
from the line that it is announced with (`Statement.ofLine?_announced`), since no tab, no comment
and no blank at an end is left of it. The main statement is that a run which comes to its end does
the same in the normal form of its program, but for the lines that cannot be read, and that the
normal form stands in what is printed by the run (`Machine.Reachable.execute_normalForm`).
-/

namespace TinyMips

/-! ## Reading a statement again -/

namespace Statement

/-- A statement as it is announced. -/
def announced (opcode operands : String) : List Char :=
  opcode.toList ++ ' ' :: operands.toList

variable {opcode operands s : List Char}

/-- Operands are operands again behind a space. -/
theorem OperandsWritten.again (h : OperandsWritten operands s) :
    OperandsWritten operands (' ' :: operands) := by
  have space : Text.IsGap [' '] := List.forall_mem_singleton.2 (by decide)
  have noOperands : OperandsWritten [] [' '] := .none ⟨[' '], [], space, .inl rfl, rfl⟩
  cases h with
  | none => exact noOperands
  | @some operands gap words comment hgap hne hfirst hwords hcomment hstripped =>
    by_cases hnil : operands = []
    · subst hnil
      exact noOperands
    · obtain ⟨front, back, -, -, rfl⟩ := hstripped.around
      have sign : '#' ∉ operands := fun hmem => hwords (by simp [hmem])
      have stripped : Text.IsStripped operands operands :=
        ⟨⟨[], [], by simp, by simp, by simp⟩, hstripped.head, hstripped.last⟩
      have written := OperandsWritten.some space hnil hstripped.head sign (.inl rfl) stripped
      rwa [List.append_nil] at written

theorem Written.again (h : Written opcode operands s) :
    Written opcode operands (opcode ++ ' ' :: operands) := by
  obtain ⟨gap, rest, -, hopcode, -, hoperands, -⟩ := h
  have stops : Text.Stops isMnemonicChar (' ' :: operands) := fun c hc => by
    obtain rfl := Option.some.inj hc
    decide
  exact ⟨[], _, Text.isGap_nil, hopcode, stops, hoperands.again, rfl⟩

/-- **Statements can be read again.** What is read from a line is read from the line that it is
announced with, whatever the number of that line is. -/
theorem ofLine?_announced {n : Int} {text : List Char} {s : Statement}
    (h : ofLine? n text = .ok (some s)) (n' : Int) :
    ofLine? n' (announced s.opcode s.operands) = .ok (some { s with line := n' }) := by
  obtain ⟨hopcode, hoperands⟩ := sublist_of_ofLine? h
  have noTab := Text.tab_notMem_expandTabsFrom 0 text
  have kept : Text.expandTabs (announced s.opcode s.operands) = announced s.opcode s.operands :=
    Text.expandTabsFrom_eq_self fun hmem => by
      rcases List.mem_append.1 hmem with hmem | hmem
      · exact noTab (hopcode.subset hmem)
      · rcases List.mem_cons.1 hmem with hmem | hmem
        · cases hmem
        · exact noTab (hoperands.subset hmem)
  refine ofLine?_eq_some_iff.2 ⟨rfl, ?_⟩
  rw [kept]
  exact (ofLine?_eq_some_iff.1 h).2.again

end Statement

namespace Item

/-- Whether a line of a program is a statement. -/
def isStatement : Item → Bool
  | .statement _ => true
  | .malformed _ => false

/-- Statements on lines that are numbered from `first`. -/
def numbered (first : Int) : List (String × String) → List Item
  | [] => []
  | (opcode, operands) :: rest =>
    .statement { line := first, opcode, operands } :: numbered (first + 1) rest

/-- The normal form of a program, which has a line for each statement, as it is announced. -/
def normalForm (source : String) : String :=
  sourceOf ((instructions (ofSource source)).map fun (opcode, operands) =>
    Statement.announced opcode operands)

theorem exists_of_mem_instructions {items : List Item} {opcode operands : String}
    (h : (opcode, operands) ∈ instructions items) :
    ∃ line, .statement { line, opcode, operands } ∈ items := by
  obtain ⟨item, hitem, h⟩ := List.mem_filterMap.1 h
  cases item with
  | malformed line => cases h
  | statement s =>
    cases h
    exact ⟨s.line, hitem⟩

theorem ofLines_announced (first : Int) {list : List (String × String)}
    (h : ∀ s ∈ list, ∀ n, Statement.ofLine? n (Statement.announced s.1 s.2) =
      .ok (some ⟨n, s.1, s.2⟩)) :
    ofLines first (list.map fun (opcode, operands) => Statement.announced opcode operands) =
      numbered first list := by
  induction list generalizing first with
  | nil => rfl
  | cons s rest ih =>
    obtain ⟨hs, hrest⟩ := List.forall_mem_cons.1 h
    rw [List.map_cons, ofLines, ofLine?, hs, ih _ hrest]
    rfl

/-- The normal form has the statements of the program and nothing else. -/
theorem ofSource_normalForm (source : String) :
    ofSource (normalForm source) = numbered 1 (instructions (ofSource source)) := by
  have again : ∀ s ∈ instructions (ofSource source), ∀ n,
      Statement.ofLine? n (Statement.announced s.1 s.2) = .ok (some ⟨n, s.1, s.2⟩) := by
    intro s hs n
    obtain ⟨line, hmem⟩ := exists_of_mem_instructions hs
    obtain ⟨first, text, -, hread⟩ := exists_of_mem_ofLines hmem
    exact Statement.ofLine?_announced hread n
  have oneLine : ∀ text ∈ (instructions (ofSource source)).map fun (opcode, operands) =>
      Statement.announced opcode operands, Text.IsOneLine text := by
    refine List.forall_mem_map.2 fun s hs => ?_
    obtain ⟨line, hmem⟩ := exists_of_mem_instructions hs
    obtain ⟨hopcode, hoperands⟩ := isOneLine_of_mem_ofSource source _ hmem
    exact Text.isOneLine_append.2 ⟨hopcode, List.forall_mem_cons.2 ⟨by decide, hoperands⟩⟩
  rw [normalForm, ofSource_sourceOf oneLine, ofLines_announced 1 again]

end Item

/-! ## Reading the announcements -/

namespace Reading

/-- What the lines of a text announce. -/
def announcements (text : String) : List (List Char) :=
  ((Text.lines text.toList).filter (startsWith "INSTRUCTION: ")).map
    (·.drop "INSTRUCTION: ".length)

end Reading

namespace Report

open Reading

/-- The instruction that a report announces. -/
def instruction? : Report → Option (String × String)
  | .instruction opcode operands => some (opcode, operands)
  | _ => none

/-- There is no capital letter `I` in a table of changes, in whatever layout. -/
theorem AreNamed.notMem_lines {list : List Change} (h : AreNamed list) (hne : list ≠ [])
    (layout : Layout) : ∀ line ∈ (changeTable list).lines layout, 'I' ∉ line := by
  have chars : ∀ layout : Layout, Text.Within (· ≠ 'I') layout.style.chars := fun layout => by
    cases layout <;> decide
  have name : ∀ r : Register, Text.Within (· ≠ 'I') r.name.toList := fun r => by
    cases r with
    | general i =>
      revert i
      decide
    | accumulator a => cases a <;> decide
  have digit : ∀ c : Char, c.isDigit = true → c ≠ 'I' := by
    rintro c hc rfl
    exact absurd hc (by decide)
  have value : ∀ n : Int, Text.Within (· ≠ 'I') (toString n).toList :=
    Text.within_toString digit (by decide)
  intro line hline hmem
  exact h.within_lines_of hne (chars layout) (by decide) name value line hline 'I' hmem rfl

/-- Of the lines of a report, only that of an instruction announces something. -/
theorem IsReadable.announcements_lines {report : Report} (h : report.IsReadable) (layout : Layout) :
    ((report.lines layout).filter (startsWith "INSTRUCTION: ")).map
        (·.drop "INSTRUCTION: ".length) =
      report.instruction?.toList.map fun (opcode, operands) =>
        Statement.announced opcode operands := by
  cases h with
  | @instruction opcode operands =>
    have line : "INSTRUCTION: ".toList ++ opcode.toList ++ " ".toList ++ operands.toList =
        "INSTRUCTION: ".toList ++ Statement.announced opcode operands := by
      simp [Statement.announced]
    have starts : startsWith "INSTRUCTION: "
        ("INSTRUCTION: ".toList ++ Statement.announced opcode operands) = true :=
      List.isPrefixOf_iff_prefix.2 (List.prefix_append _ _)
    rw [lines, line, List.filter_cons_of_neg (by decide), List.filter_cons_of_pos starts]
    exact congrArg (fun text => [text]) List.drop_left
  | error => rfl
  | @changes list hnames hne =>
    have none_starts : ((changeTable list).lines layout).filter (startsWith "INSTRUCTION: ") = [] :=
      List.filter_eq_nil_iff.2 fun line hline hstarts => by
        obtain ⟨rest, rfl⟩ := List.isPrefixOf_iff_prefix.1 hstarts
        exact hnames.notMem_lines hne layout _ hline List.mem_cons_self
    rw [lines, none_starts]
    rfl

end Report

/-- What is announced by the lines that a run prints are its instructions, in every layout. -/
theorem Event.announcements_output {events : List Event}
    (h : ∀ report ∈ reports events, report.IsReadable) (layout : Layout) :
    Reading.announcements (output layout events) =
      (instructions events).map fun (opcode, operands) => Statement.announced opcode operands := by
  have announced : instructions events = (reports events).filterMap Report.instruction? := by
    refine List.filterMap_congr fun report _ => ?_
    cases report <;> rfl
  rw [Reading.announcements, lines_output h, List.filter_flatMap, List.map_flatMap, announced,
    List.filterMap_eq_flatMap_toList, List.map_flatMap]
  exact List.flatMap_congr fun report hreport => (h report hreport).announcements_lines layout

/-! ## Running statements again -/

/-- What became of a line and what could be seen of it, whatever its number was. -/
def Stage.course (stage : Stage) : Fate × List Event :=
  (stage.fate, stage.events)

namespace Machine

variable {m : Machine}

/-- Statements are run alike under other numbers and without the lines that cannot be read, which
only add to the failures. -/
theorem runItems_numbered (first : Int) {items : List Item} {failures : Nat}
    (hrun : (m.runItems items).result = .ok failures) :
    let normal := Item.numbered first (Item.instructions items)
    (m.runItems normal).machine = (m.runItems items).machine ∧
      (m.stages normal).map Stage.course =
        ((m.stages items).filter (·.item.isStatement)).map Stage.course ∧
      ∃ count, (m.runItems normal).result = .ok count ∧
        failures = count + items.countP (!·.isStatement) := by
  induction items generalizing m first failures with
  | nil =>
    obtain rfl := Except.ok.inj hrun
    exact ⟨rfl, rfl, 0, rfl, rfl⟩
  | cons item rest ih =>
    obtain ⟨own, hown, hrest⟩ := Run.result_andThen_eq_ok.1 hrun
    obtain ⟨later, hlater, rfl⟩ := Run.result_map_eq_ok.1 hrest
    cases item with
    | malformed line =>
      obtain rfl := Except.ok.inj hown
      obtain ⟨machine, stages, count, hcount, rfl⟩ := ih first hlater
      refine ⟨machine, ?_, count, hcount, ?_⟩
      · rw [stages_cons_of_ok hown, List.filter_cons_of_neg (by simp [stage, Item.isStatement])]
        exact stages
      · rw [List.countP_cons_of_pos rfl]
        omega
    | statement s =>
      have head : Item.numbered first (Item.instructions (.statement s :: rest)) =
          .statement { s with line := first } ::
            Item.numbered (first + 1) (Item.instructions rest) := rfl
      -- The statement is dispatched just as it is under its own number.
      have hown' : (m.runItem (.statement { s with line := first })).result = .ok own := hown
      obtain ⟨machine, stages, count, hcount, rfl⟩ := ih (first + 1) hlater
      rw [head]
      refine ⟨?_, ?_, own + count, ?_, ?_⟩
      · rw [runItems_cons_of_ok hown, runItems_cons_of_ok hown']
        exact machine
      · rw [stages_cons_of_ok hown, stages_cons_of_ok hown', List.filter_cons_of_pos rfl]
        exact congrArg ((m.stage (.statement s)).course :: ·) stages
      · exact Run.result_andThen_eq_ok.2 ⟨own, hown', Run.result_map_eq_ok.2 ⟨count, hcount, rfl⟩⟩
      · rw [List.countP_cons_of_neg (by simp [Item.isStatement])]
        omega

/-- A run that comes to its end has announced all statements. -/
theorem HoldsWords.instructions_of_result (hm : m.HoldsWords) {items : List Item} {failures : Nat}
    (hrun : (m.runItems items).result = .ok failures) :
    Event.instructions (m.runItems items).events = Item.instructions items := by
  have answered := (hm.runItems_answers_iff items).1 ⟨failures, hrun⟩
  have all := hm.instructions_runItems answered []
  rw [List.append_nil] at all
  exact all.trans (List.append_nil _)

/-- **Programs can be written anew.** The normal form of a program has the statements of the program
in their order, one on each line, and nothing else.

Take a program that is run to its end on a reachable machine. Its normal form is run to its end as
well and leaves the same machine. Each statement has the same fate and the same events in both,
which make up all that can be seen but for the lines that cannot be read, and the number of failures
is less by the number of these lines. In whatever layout the run is printed, what its lines announce
is the normal form. -/
theorem Reachable.execute_normalForm (hm : m.Reachable) (source : String) :
    let items := Item.ofSource source
    let normal := Item.normalForm source
    let run := m.execute source
    let again := m.execute normal
    Item.ofSource normal = Item.numbered 1 (Item.instructions items) ∧
      ∀ failures, run.result = .ok failures →
        again.machine = run.machine ∧
        (m.stages (Item.ofSource normal)).map Stage.course =
          ((m.stages items).filter (·.item.isStatement)).map Stage.course ∧
        run.events = (m.stages items).flatMap Stage.events ∧
        again.events = (m.stages (Item.ofSource normal)).flatMap Stage.events ∧
        (∃ count, again.result = .ok count ∧ failures = count + items.countP (!·.isStatement)) ∧
        ∀ layout, sourceOf (Reading.announcements (Event.output layout run.events)) = normal := by
  intro items normal run again
  have hitems : Item.ofSource normal = Item.numbered 1 (Item.instructions items) :=
    Item.ofSource_normalForm source
  refine ⟨hitems, fun failures hrun => ?_⟩
  obtain ⟨machine, courses, count⟩ := runItems_numbered 1 hrun
  rw [← hitems] at machine courses count
  refine ⟨machine, courses, events_runItems m _, events_runItems m _, count, fun layout => ?_⟩
  have announced : Event.instructions run.events = Item.instructions items :=
    hm.holdsWords.instructions_of_result hrun
  rw [Event.announcements_output (hm.holdsWords.isReadable_execute source), announced]
  rfl

/-- A program with tabs, comments, a blank line, a line that cannot be read and an instruction that
fails. -/
theorem execute_normalForm_comments :
    let source := "\tori $t0,\t$0, 0x5 # five\r\n#\n2 oops\nadd $t1 ,$t0,$t0#\nsll $t0,$t1,99"
    let normal := "ori $t0,        $0, 0x5\nadd $t1 ,$t0,$t0\nsll $t0,$t1,99"
    zero.Reachable ∧ (zero.execute source).result = .ok 2 ∧ Item.normalForm source = normal ∧
      (zero.execute normal).machine = (zero.execute source).machine ∧
      (∃ count, (zero.execute normal).result = .ok count ∧ 2 = count + 1) ∧
      sourceOf (Reading.announcements (Event.output .grid (zero.execute source).events)) =
        normal := by
  intro source normal
  have run : (zero.execute source).result = .ok 2 := by decide +kernel
  have form : Item.normalForm source = normal := by decide +kernel
  have unread : (Item.ofSource source).countP (!·.isStatement) = 1 := by decide +kernel
  obtain ⟨-, again⟩ := Reachable.execute_normalForm .zero source
  obtain ⟨machine, -, -, -, count, announced⟩ := again 2 run
  rw [form] at machine count
  rw [unread] at count
  exact ⟨.zero, run, form, machine, count, (announced .grid).trans form⟩

end Machine

end TinyMips
