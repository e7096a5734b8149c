import TinyMips.Proofs.Records
import TinyMips.Proofs.Stages

/-!
# Failures are isolated

A line of a program that is not executed leaves no trace but its own. The main statement is that in
a program that is run to its end, such a line can be blanked: the program is still run to its end,
it leaves the same machine, all other lines are run just as before, and the number of failures is
that of the lines that are left (`Machine.Reachable.execute_blanked`). The lines keep their numbers,
since the blank line is still counted (`Item.ofLines_blanked`).
-/

namespace TinyMips

/-! ## Lines of a program -/

/-- A program with these lines. -/
def sourceOf (ls : List (List Char)) : String :=
  String.ofList (Text.joinLines ls)

namespace Item

/-- The number of a line. -/
def line : Item → Int
  | .statement s => s.line
  | .malformed m => m.line

theorem line_of_ofLine? {n : Int} {text : List Char} {item : Item}
    (h : ofLine? n text = some item) : item.line = n := by
  rw [ofLine?, Statement.ofLine?] at h
  split at h
  case _ => cases h
  case _ s hs =>
    cases h
    split at hs
    case _ => cases hs
    case _ =>
      split at hs
      case _ =>
        cases hs
        rfl
      case _ => cases hs
  case _ e he =>
    cases h
    split at he
    case _ => cases he
    case _ =>
      split at he
      case _ => cases he
      case _ =>
        cases he
        rfl

/-- The lines of a program are numbered one after the other. -/
theorem ofLines_append (first : Int) (a b : List (List Char)) :
    ofLines first (a ++ b) = ofLines first a ++ ofLines (first + a.length) b := by
  induction a generalizing first with
  | nil => simp [ofLines]
  | cons text rest ih =>
    have next : first + 1 + rest.length = first + (text :: rest).length := by
      simp only [List.length_cons]
      omega
    rw [List.cons_append, ofLines, ofLines, ih, List.append_assoc, next]

theorem line_of_mem_ofLines {first : Int} {ls : List (List Char)} {item : Item}
    (h : item ∈ ofLines first ls) : first ≤ item.line ∧ item.line < first + ls.length := by
  induction ls generalizing first with
  | nil => cases h
  | cons text rest ih =>
    rw [List.length_cons]
    rcases List.mem_append.1 h with h | h
    · have := line_of_ofLine? (Option.mem_toList.1 h)
      omega
    · have := ih h
      omega

/-- The lines that a program is made of are the lines that are read, up to blank lines at its
end. -/
theorem ofLines_joinLines (first : Int) {ls : List (List Char)}
    (h : ∀ text ∈ ls, Text.IsOneLine text) :
    ofLines first (Text.lines (Text.joinLines ls)) = ofLines first ls := by
  induction ls generalizing first with
  | nil => rfl
  | cons text rest ih =>
    obtain ⟨htext, hrest⟩ := List.forall_mem_cons.1 h
    cases rest with
    | nil =>
      -- A program that ends in a line feed has no line after it, but the last line is blank.
      by_cases hnil : text = []
      · subst hnil
        rfl
      · rw [Text.joinLines, List.intercalate_singleton, Text.lines_of_isOneLine htext hnil]
    | cons next rest =>
      rw [Text.joinLines_cons_cons, Text.lines_append_feed htext, ofLines, ofLines, ih _ hrest]

theorem ofSource_sourceOf {ls : List (List Char)} (h : ∀ text ∈ ls, Text.IsOneLine text) :
    ofSource (sourceOf ls) = ofLines 1 ls := by
  rw [ofSource, sourceOf, String.toList_ofList, ofLines_joinLines 1 h]

/-- Blanking a line takes away what it holds, and nothing else. -/
theorem ofLines_blanked (before after : List (List Char)) (line : List Char) :
    ofLines 1 (before ++ line :: after) = ofLines 1 before ++
        ((ofLine? (1 + before.length) line).toList ++ ofLines (1 + before.length + 1) after) ∧
      ofLines 1 (before ++ [] :: after) =
        ofLines 1 before ++ ofLines (1 + before.length + 1) after :=
  ⟨ofLines_append 1 before _, ofLines_append 1 before _⟩

end Item

/-! ## A line that is left out -/

/-- The number of failures with and without a line that does not end the run and is not executed. -/
theorem Fate.cases_of_result {fate : Fate} {own : Nat} (h : fate.result = .ok own)
    (hfate : fate ≠ .dispatched .executed) (count : Nat) :
    (fate = .malformed ∨ fate = .dispatched .failed) ∧ count + own = count + 1 ∨
      fate = .dispatched .ignored ∧ count + own = count := by
  match fate, h with
  | .malformed, rfl => exact .inl ⟨.inl rfl, rfl⟩
  | .dispatched .failed, rfl => exact .inl ⟨.inr rfl, rfl⟩
  | .dispatched .ignored, rfl => exact .inr ⟨rfl, rfl⟩
  | .dispatched .executed, _ => exact absurd rfl hfate

namespace Machine

variable {m : Machine} {before after : List Item} {item : Item} {failures : Nat}

/-- A program in two parts is run to its end if both parts are. -/
theorem result_runItems_append {a b : List Item} :
    (m.runItems (a ++ b)).result = .ok failures ↔
      ∃ first later, (m.runItems a).result = .ok first ∧
        ((m.runItems a).machine.runItems b).result = .ok later ∧ first + later = failures := by
  rw [runItems_append, Run.result_andThen_eq_ok]
  refine exists_congr fun first => ?_
  rw [Run.result_map_eq_ok, exists_and_left]

theorem machine_runItems_append {a : List Item} {first : Nat}
    (h : (m.runItems a).result = .ok first) (b : List Item) :
    (m.runItems (a ++ b)).machine = ((m.runItems a).machine.runItems b).machine := by
  rw [runItems_append, Run.andThen_of_ok h]
  rfl

/-- Lines with other numbers are kept when the lines with a number are left out. -/
theorem filter_stages_eq_self {items : List Item} {n : Int} (h : ∀ item ∈ items, item.line ≠ n) :
    (m.stages items).filter (·.item.line ≠ n) = m.stages items :=
  List.filter_eq_self.2 fun _ hstage => decide_eq_true (h _ (item_mem_of_mem_stages _ hstage))

/-- In a run that comes to its end, the stage with the number of a line is the stage of that
line. -/
theorem eq_stage_of_mem_stages (hrun : (m.runItems (before ++ item :: after)).result = .ok failures)
    {stage : Stage} (hstage : stage ∈ m.stages (before ++ item :: after))
    (hbefore : ∀ other ∈ before, other.line ≠ stage.item.line)
    (hafter : ∀ other ∈ after, other.line ≠ stage.item.line) :
    stage = (m.runItems before).machine.stage item := by
  obtain ⟨first, rest, hfirst, hrest, -⟩ := result_runItems_append.1 hrun
  obtain ⟨count, hcount, -⟩ := Run.result_andThen_eq_ok.1 hrest
  rw [stages_append hfirst, stages_cons_of_ok hcount, List.mem_append, List.mem_cons] at hstage
  rcases hstage with h | h | h
  · exact absurd rfl (hbefore _ (item_mem_of_mem_stages _ h))
  · exact h
  · exact absurd rfl (hafter _ (item_mem_of_mem_stages _ h))

/-- A line that is not executed can be left out of a program that is run to its end. -/
theorem HoldsWords.runItems_leaveOut (hm : m.HoldsWords)
    (hrun : (m.runItems (before ++ item :: after)).result = .ok failures)
    {stage : Stage} (hstage : stage ∈ m.stages (before ++ item :: after))
    (hbefore : ∀ other ∈ before, other.line ≠ stage.item.line)
    (hafter : ∀ other ∈ after, other.line ≠ stage.item.line)
    (hfate : stage.fate ≠ .dispatched .executed) :
    (m.runItems (before ++ after)).machine = (m.runItems (before ++ item :: after)).machine ∧
      m.stages (before ++ after) =
        (m.stages (before ++ item :: after)).filter (·.item.line ≠ stage.item.line) ∧
      ∃ count own, (m.runItems (before ++ after)).result = .ok count ∧
        stage.fate.result = .ok own ∧ failures = count + own := by
  obtain rfl := eq_stage_of_mem_stages hrun hstage hbefore hafter
  obtain ⟨first, rest, hfirst, hrest, rfl⟩ := result_runItems_append.1 hrun
  obtain ⟨own, hown, hmap⟩ := Run.result_andThen_eq_ok.1 hrest
  obtain ⟨later, hlater, rfl⟩ := Run.result_map_eq_ok.1 hmap
  have words : (m.runItems before).machine.HoldsWords :=
    runItems_preserves (fun _ opcode operands h => h.dispatch opcode operands) hm before
  -- The lines behind the line are run on the machine that the lines in front of it leave.
  have same := words.machine_runItem hfate
  rw [same] at hlater
  refine ⟨?_, ?_, first + later, own, ?_, (result_runItem _ item).symm.trans hown, by omega⟩
  · rw [machine_runItems_append hfirst, machine_runItems_append hfirst, runItems_cons_of_ok hown,
      same]
    rfl
  · rw [stages_append hfirst, stages_append hfirst, stages_cons_of_ok hown, same,
      List.filter_append, filter_stages_eq_self hbefore,
      List.filter_cons_of_neg (by simp), filter_stages_eq_self hafter]
  · exact result_runItems_append.2 ⟨first, later, hfirst, hlater, rfl⟩

/-- **Failures are isolated.** Take a program that is run to its end on a reachable machine, and one
of its lines that cannot be read or is an instruction that fails or is ignored. With that line
blanked the program is still run to its end and leaves the same machine. Its stages are those of the
other lines: each has the same item, with the same number, the same fate and the same events. The
number of failures is one less, or the same if the instruction was ignored. -/
theorem Reachable.execute_blanked {m : Machine} (hm : m.Reachable) (before after : List (List Char))
    (line : List Char) (hlines : ∀ text ∈ before ++ line :: after, Text.IsOneLine text) :
    let run := m.execute (sourceOf (before ++ line :: after))
    let blanked := m.execute (sourceOf (before ++ [] :: after))
    let stages := m.stages (Item.ofSource (sourceOf (before ++ line :: after)))
    let others := m.stages (Item.ofSource (sourceOf (before ++ [] :: after)))
    ∀ failures, run.result = .ok failures →
    ∀ stage ∈ stages, stage.item.line = before.length + 1 → stage.fate ≠ .dispatched .executed →
      blanked.machine = run.machine ∧
      others = stages.filter (·.item.line ≠ stage.item.line) ∧
      run.events = stages.flatMap Stage.events ∧ blanked.events = others.flatMap Stage.events ∧
      ∃ count, blanked.result = .ok count ∧
        ((stage.fate = .malformed ∨ stage.fate = .dispatched .failed) ∧ failures = count + 1 ∨
          stage.fate = .dispatched .ignored ∧ failures = count) := by
  intro run blanked stages others failures hrun stage hstage hnumber hfate
  have hblank : ∀ text ∈ before ++ [] :: after, Text.IsOneLine text := by
    rw [List.forall_mem_append, List.forall_mem_cons] at hlines ⊢
    exact ⟨hlines.1, Text.isOneLine_nil, hlines.2.2⟩
  obtain ⟨hitems, hothers⟩ := Item.ofLines_blanked before after line
  rw [← Item.ofSource_sourceOf hlines] at hitems
  rw [← Item.ofSource_sourceOf hblank] at hothers
  have earlier : ∀ item ∈ Item.ofLines 1 before, item.line ≠ stage.item.line := fun item hitem => by
    have := Item.line_of_mem_ofLines hitem
    omega
  have later : ∀ item ∈ Item.ofLines (1 + before.length + 1) after,
      item.line ≠ stage.item.line := fun item hitem => by
    have := Item.line_of_mem_ofLines hitem
    omega
  cases hline : Item.ofLine? (1 + before.length) line with
  | none =>
    -- Then no line has the number of the stage.
    rw [hline, Option.toList_none, List.nil_append] at hitems
    have hmem := item_mem_of_mem_stages _ hstage
    rw [hitems] at hmem
    exact absurd rfl ((List.mem_append.1 hmem).elim (earlier _) (later _))
  | some item =>
    rw [hline, Option.toList_some, List.singleton_append] at hitems
    simp only [run, Machine.execute, hitems] at hrun
    simp only [stages, hitems] at hstage
    obtain ⟨same, left, count, own, hcount, hown, rfl⟩ :=
      hm.holdsWords.runItems_leaveOut hrun hstage earlier later hfate
    simp only [run, blanked, stages, others, Machine.execute, hitems, hothers]
    refine ⟨same, left, events_runItems _ _, events_runItems _ _, count, hcount, ?_⟩
    exact Fate.cases_of_result hown hfate count

/-- A program with a line that cannot be read, between an instruction that is ignored and one that
fails. -/
theorem execute_blanked_malformed :
    let before := ["ori $t0,$0,5".toList, "mult $t0,$t0".toList]
    let after := ["add $zero,$t0,$t0".toList, "addi $t1,$t0,1".toList]
    let source := sourceOf (before ++ "2 $t0".toList :: after)
    let blanked := sourceOf (before ++ [] :: after)
    zero.Reachable ∧ (zero.execute source).result = .ok 2 ∧
      (zero.stages (Item.ofSource source)).map Stage.fate =
        [.dispatched .executed, .dispatched .ignored, .malformed, .dispatched .failed,
          .dispatched .executed] ∧
      (zero.execute blanked).machine = (zero.execute source).machine ∧
      ∃ count, (zero.execute blanked).result = .ok count ∧ 2 = count + 1 := by
  intro before after source blanked
  have run : (zero.execute source).result = .ok 2 := by decide +kernel
  have third : ∃ stage ∈ zero.stages (Item.ofSource source),
      stage.item.line = before.length + 1 ∧ stage.fate = .malformed := by
    decide +kernel
  obtain ⟨stage, hstage, hnumber, hfate⟩ := third
  obtain ⟨same, -, -, -, count, hcount, hfailures⟩ :=
    Reachable.execute_blanked .zero before after "2 $t0".toList (by decide) 2 run stage hstage
      hnumber (by simp [hfate])
  refine ⟨.zero, run, by decide +kernel, same, count, hcount, ?_⟩
  exact hfailures.elim And.right fun ignored => absurd (hfate.symm.trans ignored.1) (by decide)

end Machine

end TinyMips
