import TinyMips.Proofs.Complaints
import TinyMips.Proofs.Concatenation

/-!
# Names of no register

An instruction that names a register which does not exist fails, with one error on the output, and
leaves the registers as they were. This holds of all instructions but the product, which is not
carried out and does not look its registers up (`Machine.Reachable.dispatch_unknown_register`). The
error is counted in the text that is printed, where it stands behind the announcement of the
instruction. That may take several lines, since the gaps between operands may have line breaks; but
operands have no bracket in them (`Operands.Written.bracket_notMem`), so none of these lines looks
like an error.
-/

namespace TinyMips

/-! ## Characters of operands -/

/-- Operands have no bracket in them. -/
theorem Operands.Written.bracket_notMem {shape : Shape} {ops : Operands shape} {s : List Char}
    (h : ops.Written s) : '[' ∉ s :=
  h.notMem (by decide) (by decide) (by decide)

/-- Writing tabs as spaces loses no other character. -/
theorem Text.mem_expandTabsFrom {c : Char} (hc : c ≠ '\t') {column : Nat} {s : List Char}
    (h : c ∈ s) : c ∈ expandTabsFrom column s := by
  induction s generalizing column with
  | nil => cases h
  | cons d rest ih =>
    rw [expandTabsFrom]
    rcases List.mem_cons.1 h with rfl | hrest
    · rw [if_neg hc]
      exact List.mem_cons_self
    · split
      · exact List.mem_append_right _ (ih hrest)
      · exact List.mem_cons_of_mem d (ih hrest)

/-! ## Lines that tell errors -/

/-- What holds of all characters of a text holds of all characters of its lines. -/
theorem Text.forall_mem_lines {P : Char → Prop} {s : List Char} (h : ∀ c ∈ s, P c) :
    ∀ line ∈ lines s, ∀ c ∈ line, P c := by
  induction s using lines.induct with
  | case1 => exact fun _ hline => absurd hline List.not_mem_nil
  | case2 rest ih =>
    rw [lines]
    refine List.forall_mem_cons.2 ⟨fun _ hc => absurd hc List.not_mem_nil, ih fun c hc => ?_⟩
    exact h c (List.mem_cons_of_mem _ (List.mem_cons_of_mem _ hc))
  | case3 c rest hpair hbreak ih =>
    rw [lines.eq_3 c rest hpair, if_pos hbreak]
    refine List.forall_mem_cons.2 ⟨fun _ hc => absurd hc List.not_mem_nil, ih fun d hd => ?_⟩
    exact h d (List.mem_cons_of_mem c hd)
  | case4 c rest hpair hbreak ih =>
    obtain ⟨hc, hrest⟩ := List.forall_mem_cons.1 h
    rw [lines.eq_3 c rest hpair, if_neg hbreak]
    have later := ih hrest
    cases hlines : lines rest with
    | nil => exact List.forall_mem_singleton.2 (List.forall_mem_singleton.2 hc)
    | cons line others =>
      rw [hlines] at later
      obtain ⟨hline, hothers⟩ := List.forall_mem_cons.1 later
      exact List.forall_mem_cons.2 ⟨List.forall_mem_cons.2 ⟨hc, hline⟩, hothers⟩

namespace Reading

/-- A text without brackets has no line that tells an error. -/
theorem errorLines_eq_nil {text : String} (h : '[' ∉ text.toList) : errorLines text = [] := by
  have apart : ∀ c ∈ text.toList, c ≠ '[' := by
    rintro c hc rfl
    exact h hc
  refine List.filter_eq_nil_iff.2 fun line hline hstart => ?_
  obtain ⟨rest, rfl⟩ := List.isPrefixOf_iff_prefix.1 hstart
  exact Text.forall_mem_lines apart _ hline '[' List.mem_cons_self rfl

theorem errorLines_append {a : String} (ha : Text.EndsLine a.toList) (b : String) :
    errorLines (a ++ b) = errorLines a ++ errorLines b := by
  rw [errorLines, String.toList_append, Text.lines_append ha, List.filter_append]
  rfl

end Reading

/-! ## Printed instructions -/

namespace Event

variable {opcode operands words : String} {events : List Event}

theorem output_announcement (opcode operands : String) (layout : Layout) :
    (output layout [.report (.instruction opcode operands)]).toList =
      ['\n'] ++ (("INSTRUCTION: ".toList ++ opcode.toList ++ " ".toList ++ operands.toList) ++
        ['\n']) := by
  have reported : reports [.report (.instruction opcode operands)] =
      [.instruction opcode operands] := rfl
  have rendered : (Report.instruction opcode operands).render layout = Report.ofLines [[],
      "INSTRUCTION: ".toList ++ opcode.toList ++ " ".toList ++ operands.toList] := rfl
  rw [output, String.toList_ofList, reported, List.flatMap_singleton, rendered, Report.ofLines,
    List.flatMap_cons, List.flatMap_singleton, List.nil_append]

/-- The announcement of an instruction without brackets tells no error, however many lines it
takes. -/
theorem errorLines_announcement (hopcode : '[' ∉ opcode.toList) (hoperands : '[' ∉ operands.toList)
    (layout : Layout) :
    Reading.errorLines (output layout [.report (.instruction opcode operands)]) = [] := by
  refine Reading.errorLines_eq_nil ?_
  simp only [output_announcement, List.mem_append, not_or]
  exact ⟨by decide, ⟨⟨⟨by decide, hopcode⟩, by decide⟩, hoperands⟩, by decide⟩

theorem endsLine_announcement (opcode operands : String) (layout : Layout) :
    Text.EndsLine (output layout [.report (.instruction opcode operands)]).toList := by
  rw [output_announcement, ← List.append_assoc]
  exact .inr List.getLast?_concat

/-- An announcement and an error are printed with the one line that tells the error. -/
theorem errorLines_of_failed (hopcode : '[' ∉ opcode.toList) (hoperands : '[' ∉ operands.toList)
    (hwords : Text.IsOneLine words.toList)
    (h : reports events = [.instruction opcode operands, .error words]) (layout : Layout) :
    Reading.errorLines (output layout events) = ["[ERR]: ".toList ++ words.toList] := by
  have parts : output layout events = output layout
      ([.report (.instruction opcode operands)] ++ [.report (.error words)]) := by
    rw [output, h, output]
    rfl
  have readable : ∀ report ∈ reports [.report (.error words)], report.IsReadable :=
    List.forall_mem_singleton.2 (.error hwords)
  rw [parts, output_append, Reading.errorLines_append (endsLine_announcement _ _ _),
    errorLines_announcement hopcode hoperands, errorLines_output readable]
  rfl

/-- An announcement alone is printed without a line that tells an error. -/
theorem errorLines_of_announced (hopcode : '[' ∉ opcode.toList) (hoperands : '[' ∉ operands.toList)
    (h : reports events = [.instruction opcode operands]) (layout : Layout) :
    Reading.errorLines (output layout events) = [] := by
  have parts : output layout events = output layout [.report (.instruction opcode operands)] := by
    rw [output, h, output]
    rfl
  rw [parts, errorLines_announcement hopcode hoperands]

end Event

/-! ## Unknown registers -/

theorem Opcode.bracket_notMem_text (op : Opcode) : '[' ∉ op.text.toList := by
  cases op <;> decide

/-- Registers are named as sources or as the destination. -/
theorem Operands.mem_sources_or {shape : Shape} {ops : Operands shape} {name : String}
    (h : name ∈ ops.registers) : name ∈ ops.sources ∨ ops.destination? = some name := by
  cases ops with
  | rrr rd rs rt =>
    rcases List.mem_cons.1 h with rfl | h
    · exact .inr rfl
    · exact .inl h
  | rri rd rs n =>
    rcases List.mem_cons.1 h with rfl | h
    · exact .inr rfl
    · exact .inl h
  | rr rs rt => exact .inl h
  | r rd =>
    obtain rfl := List.mem_singleton.1 h
    exact .inr rfl

/-- All registers that operands name are among the complaints about them. -/
theorem Instruction.unknown_mem_complaints (m : Machine) {i : Instruction} {ops : Operands i.shape}
    {name : String} (h : name ∈ ops.registers) : .unknown name ∈ i.complaints m ops := by
  rw [complaints]
  rcases Operands.mem_sources_or h with hsource | hdestination
  · exact List.mem_append_left _ (List.mem_append_left _ (List.mem_map_of_mem hsource))
  · rw [hdestination]
    exact List.mem_append_right _ List.mem_cons_self

namespace Machine

variable {m : Machine} {operands : String} {op : Opcode} {ops : Operands op.instruction.shape}
  {name : String}

/-- Instructions that are carried out look all of their registers up. -/
theorem HoldsWords.failsWith_of_unknown (hm : m.HoldsWords) (hop : op ≠ .mult)
    (hruns : Text.RunsWithin 3500 operands.toList)
    (hops : ops.Written (Text.expandTabs operands.toList)) (hname : name ∈ ops.registers)
    (hunknown : ¬IsRegister name) :
    ∃ words, m.FailsWith op.text operands words ∧ Text.IsOneLine words.toList := by
  have carried := Opcode.instruction_ne_multiply hop
  have decided := Instruction.decide_complaints m carried hops hruns.expandTabs
  obtain ⟨words, hfirst⟩ :=
    Complaint.exists_first (Instruction.unknown_mem_complaints m hname) hunknown
  obtain ⟨f, hverdict, rfl⟩ := decided.fails words hfirst
  refine ⟨f.message, hm.failsWith_of_verdicts carried hops hverdict, ?_⟩
  refine Fault.isOneLine_message fun text htext => ?_
  obtain ⟨r, rfl⟩ := Check.bareTexts_of_verdicts hverdict text htext
  exact Text.isOneLine_name r

/-- The product does not look its registers up. -/
theorem HoldsWords.result_multiply (hm : m.HoldsWords)
    {ops : Operands Opcode.mult.instruction.shape}
    (hops : ops.Written (Text.expandTabs operands.toList)) :
    (m.perform Opcode.mult.text operands).result = .ok .ignored := by
  rw [(performs hm Opcode.mult.text operands).result_eq Opcode.mult.ofText?_text,
    Operands.parse_eq_ok_iff.2 hops, ok_bind]
  cases ops with
  | rr rs rt => rfl

/-- **Names of no register are faults, but not in products.** On every machine that can be reached,
take an instruction with operands of its shape, in which no run of letters and digits is too long,
and let one of the registers that they name not exist. The machine stays as it was. Instructions
other than the product fail, and one line of what is printed tells an error. The product is passed
over like any other, without an error. -/
theorem Reachable.dispatch_unknown_register (hm : m.Reachable)
    (hruns : Text.RunsWithin 3500 operands.toList)
    (hops : ops.Written (Text.expandTabs operands.toList)) (hname : name ∈ ops.registers)
    (hunknown : ¬IsRegister name) :
    let run := m.dispatch op.text operands
    run.machine = m ∧
      (op ≠ .mult → run.result = .ok .failed ∧
        ∀ layout, (Reading.errorLines (Event.output layout run.events)).length = 1) ∧
      (op = .mult → run.result = .ok .ignored ∧
        ∀ layout, Reading.errorLines (Event.output layout run.events) = []) := by
  intro run
  have words := hm.holdsWords
  have bare : '[' ∉ operands.toList := fun hmem =>
    hops.bracket_notMem (Text.mem_expandTabsFrom (by decide) hmem)
  by_cases hop : op = .mult
  case neg =>
    obtain ⟨told, hfails, hline⟩ := words.failsWith_of_unknown hop hruns hops hname hunknown
    refine ⟨hfails.machine, fun _ => ⟨hfails.result, fun layout => ?_⟩, fun h => absurd h hop⟩
    rw [Event.errorLines_of_failed op.bracket_notMem_text bare hline hfails.reports]
    rfl
  case pos =>
    subst hop
    have performed := performs words Opcode.mult.text operands
    have result := words.result_multiply hops
    have unexecuted : (m.perform Opcode.mult.text operands).result ≠ .ok .executed := by
      simp [result]
    have announced : Event.reports run.events = [.instruction Opcode.mult.text operands] := by
      rw [reports_dispatch, performed.reports_eq_nil unexecuted, result]
      rfl
    refine ⟨?_, fun h => absurd rfl h, fun _ => ⟨?_, fun layout => ?_⟩⟩
    · rw [machine_dispatch]
      exact (performed.unchanged unexecuted).1
    · rw [result_dispatch, result]
      rfl
    · exact Event.errorLines_of_announced (Opcode.bracket_notMem_text _) bare announced layout

/-- A destination that does not exist is found out although the operation can be computed. -/
theorem dispatch_unknown_register_destination :
    Text.RunsWithin 3500 "$nope,$t0,$t1".toList ∧ ¬IsRegister "$nope" ∧
      (zero.dispatch "add" "$nope,$t0,$t1").result = .ok .failed ∧
      (Reading.errorLines
        (Event.output .grid (zero.dispatch "add" "$nope,$t0,$t1").events)).length = 1 := by
  have short : Text.RunsWithin 3500 "$nope,$t0,$t1".toList :=
    Text.runsWithin_of_length_le (by decide)
  have unknown : ¬IsRegister "$nope" := not_isRegister_of_find rfl
  have written : (Operands.rrr "$nope" "$t0" "$t1").Written
      (Text.expandTabs "$nope,$t0,$t1".toList) :=
    Operands.read?_eq_ok_iff.1 rfl
  obtain ⟨-, failed, -⟩ := @Reachable.dispatch_unknown_register zero _ .add _ _ .zero short written
    List.mem_cons_self unknown
  exact ⟨short, unknown, (failed (by decide)).1, (failed (by decide)).2 .grid⟩

/-- A product of a register that does not exist is passed over without an error. -/
theorem multiply_unknown_register :
    zero.Reachable ∧ Text.RunsWithin 3500 "$nope,$t0".toList ∧
      (Operands.rr "$nope" "$t0").Written (Text.expandTabs "$nope,$t0".toList) ∧
      ¬IsRegister "$nope" ∧
      (zero.dispatch "mult" "$nope,$t0").result = .ok .ignored ∧
      Reading.errorLines (Event.output .grid (zero.dispatch "mult" "$nope,$t0").events) = [] := by
  have short : Text.RunsWithin 3500 "$nope,$t0".toList := Text.runsWithin_of_length_le (by decide)
  have written : (Operands.rr "$nope" "$t0").Written (Text.expandTabs "$nope,$t0".toList) :=
    Operands.read?_eq_ok_iff.1 rfl
  exact ⟨.zero, short, written, not_isRegister_of_find rfl, rfl, by decide⟩

end Machine

end TinyMips
