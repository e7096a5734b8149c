import TinyMips.Proofs.Limits
import TinyMips.Proofs.Reachable

/-!
# What ends a run

Instructions that are at fault do not end a run, but some do. The main statement is that an
instruction on a reachable machine is answered unless its text asks for a numeral beyond the limits,
and that a program is run to its end unless one of its statements is such an instruction, in which
case it is run up to the first of them (`Machine.Reachable.answers_iff`).
-/

namespace TinyMips

/-- The instructions that were announced, in order. -/
def Event.instructions (events : List Event) : List (String × String) :=
  (reports events).filterMap fun
    | .instruction opcode operands => some (opcode, operands)
    | _ => none

@[simp] theorem Event.instructions_append (a b : List Event) :
    instructions (a ++ b) = instructions a ++ instructions b := by
  simp [instructions]

/-- The statements among the lines of a program, each as it is announced. -/
def Item.instructions (items : List Item) : List (String × String) :=
  items.filterMap fun
    | .statement s => some (s.opcode, s.operands)
    | .malformed _ => none

@[simp] theorem Item.instructions_append (a b : List Item) :
    instructions (a ++ b) = instructions a ++ instructions b := by
  simp [instructions]

/-- Whether a line of a program asks for a numeral beyond the limits. -/
def Item.ExceedsLimits : Item → Prop
  | .statement s => TinyMips.ExceedsLimits s.opcode s.operands
  | .malformed _ => False

namespace Machine

variable {m : Machine} {opcode operands : String}

/-! ## Instructions -/

theorem halts_interpret_iff (m : Machine) (op : Opcode) (opcode operands : String) :
    Halts (op.instruction.interpret m opcode operands >>= Instruction.Effect.verdict) ↔
      Operands.HasOverlongLiteral op.instruction.shape (Text.expandTabs operands.toList) ∨
        ∃ ops, Operands.parse op.instruction.shape opcode operands = .ok ops ∧
          op.instruction.Exceeds ops := by
  rw [Opcode.interpret_verdict, halts_bind, Operands.halts_parse_iff]
  -- The operands have been read, so their registers are tokens and the checks are what is left.
  refine or_congr_right (exists_congr fun ops => and_congr_right fun hops => ?_)
  exact Instruction.halts_verdicts_checks m op.instruction (Operands.isToken_of_parse hops)

theorem Performs.halts_iff {run : Run Failure Outcome} (h : m.Performs opcode operands run) :
    Halts run.result ↔ ExceedsLimits opcode operands := by
  simp only [ExceedsLimits, ← halts_interpret_iff m]
  cases h with
  | unknown hop => simp [hop]
  | refused hop heval => simp [hop, heval]
  | ignored hop heval => simp [hop, heval, Instruction.Effect.verdict]
  | assigned hop heval hrd _ => simp [hop, heval, Instruction.Effect.verdict, hrd]
  | divided hop heval _ _ => simp [hop, heval, Instruction.Effect.verdict]

theorem exists_settle_iff {result : Except Failure Outcome} :
    (∃ outcome, settle result = .ok outcome) ↔ ¬Halts result := by
  match result with
  | .ok outcome => simp [settle]
  | .error (.fault f) => simp [settle]
  | .error (.numeral e) => simp [settle]

/-- An instruction is answered unless its text asks for a numeral beyond the limits. -/
theorem HoldsWords.dispatch_answers_iff (hm : m.HoldsWords) (opcode operands : String) :
    (∃ outcome, (m.dispatch opcode operands).result = .ok outcome) ↔
      ¬ExceedsLimits opcode operands := by
  rw [result_dispatch, exists_settle_iff, (performs hm opcode operands).halts_iff]

theorem Performs.instructions_eq_nil {run : Run Failure Outcome}
    (h : m.Performs opcode operands run) : Event.instructions run.events = [] := by
  cases h <;> rfl

/-- An instruction is announced once. -/
theorem HoldsWords.instructions_dispatch (hm : m.HoldsWords) (opcode operands : String) :
    Event.instructions (m.dispatch opcode operands).events = [(opcode, operands)] := by
  have performed := (performs hm opcode operands).instructions_eq_nil
  rw [Event.instructions] at performed
  rw [Event.instructions, filterMap_reports_dispatch fun _ => rfl, performed]
  rfl

/-! ## Programs -/

/-- A line of a program is answered unless it asks for a numeral beyond the limits. -/
theorem HoldsWords.runItem_answers_iff (hm : m.HoldsWords) (item : Item) :
    (∃ failures, (m.runItem item).result = .ok failures) ↔ ¬item.ExceedsLimits := by
  cases item with
  | statement s =>
    rw [Item.ExceedsLimits, ← hm.dispatch_answers_iff]
    simp only [Machine.runItem, runStatement, Run.result_map_eq_ok]
    constructor
    · rintro ⟨_, outcome, h, -⟩
      exact ⟨outcome, h⟩
    · rintro ⟨outcome, h⟩
      exact ⟨_, outcome, h, rfl⟩
  | malformed line => exact iff_of_true ⟨1, rfl⟩ id

theorem HoldsWords.instructions_runItem (hm : m.HoldsWords) (item : Item) :
    Event.instructions (m.runItem item).events = Item.instructions [item] := by
  cases item with
  | statement s => exact hm.instructions_dispatch s.opcode s.operands
  | malformed line => rfl

/-- A program is run to its end unless one of its lines asks for a numeral beyond the limits. -/
theorem HoldsWords.runItems_answers_iff (hm : m.HoldsWords) (items : List Item) :
    (∃ failures, (m.runItems items).result = .ok failures) ↔
      ∀ item ∈ items, ¬item.ExceedsLimits := by
  induction items generalizing m with
  | nil => exact iff_of_true ⟨0, rfl⟩ fun _ h => absurd h List.not_mem_nil
  | cons item rest ih =>
    have hrest := ih (hm.runItem item)
    rw [List.forall_mem_cons, ← hm.runItem_answers_iff item, ← hrest]
    constructor
    · rintro ⟨failures, h⟩
      obtain ⟨first, hfirst, h⟩ := Run.result_andThen_eq_ok.1 h
      obtain ⟨later, hlater, -⟩ := Run.result_map_eq_ok.1 h
      exact ⟨⟨first, hfirst⟩, later, hlater⟩
    · rintro ⟨⟨first, hfirst⟩, later, hlater⟩
      refine ⟨first + later, Run.result_andThen_eq_ok.2 ⟨first, hfirst, ?_⟩⟩
      exact Run.result_map_eq_ok.2 ⟨later, hlater, rfl⟩

/-- Lines that ask for no numeral beyond the limits are run, and then the lines after them. -/
theorem HoldsWords.instructions_runItems (hm : m.HoldsWords) {before : List Item}
    (h : ∀ item ∈ before, ¬item.ExceedsLimits) (after : List Item) :
    Event.instructions (m.runItems (before ++ after)).events = Item.instructions before ++
      Event.instructions ((m.runItems before).machine.runItems after).events := by
  induction before generalizing m with
  | nil => rfl
  | cons item rest ih =>
    obtain ⟨hitem, hrest⟩ := List.forall_mem_cons.1 h
    obtain ⟨failures, hfailures⟩ := (hm.runItem_answers_iff item).2 hitem
    rw [List.cons_append, runItems_cons_of_ok hfailures, runItems_cons_of_ok hfailures]
    change Event.instructions (_ ++ _) = _
    rw [Event.instructions_append, hm.instructions_runItem]
    calc Item.instructions [item] ++
          Event.instructions ((m.runItem item).machine.runItems (rest ++ after)).events
        = Item.instructions [item] ++ (Item.instructions rest ++ Event.instructions
            (((m.runItem item).machine.runItems rest).machine.runItems after).events) := by
          rw [ih (hm.runItem item) hrest]
      _ = Item.instructions (item :: rest) ++ Event.instructions
            (((m.runItem item).machine.runItems rest).machine.runItems after).events := by
          rw [← List.append_assoc, ← Item.instructions_append]
          rfl

/-- A line that asks for a numeral beyond the limits is the last that is run. -/
theorem HoldsWords.instructions_runItems_cons (hm : m.HoldsWords) {item : Item}
    (h : item.ExceedsLimits) (rest : List Item) :
    Event.instructions (m.runItems (item :: rest)).events = Item.instructions [item] := by
  cases hresult : (m.runItem item).result with
  | error e =>
    rw [runItems, Run.andThen_of_error hresult]
    exact hm.instructions_runItem item
  | ok failures => exact absurd h ((hm.runItem_answers_iff item).1 ⟨failures, hresult⟩)

/-- **What ends a run.** On a reachable machine, an instruction is answered exactly if its text asks
for no numeral beyond the limits. A program is run to its end exactly if none of its statements asks
for one, and then all of them have been announced, in order. If there is one, the statements up to
and with the first are. -/
theorem Reachable.answers_iff {m : Machine} (hm : m.Reachable) :
    (∀ opcode operands, (∃ outcome, (m.dispatch opcode operands).result = .ok outcome) ↔
      ¬ExceedsLimits opcode operands) ∧
    ∀ source, let run := m.execute source
      ((∃ failures, run.result = .ok failures) ↔
        ∀ item ∈ Item.ofSource source, ¬item.ExceedsLimits) ∧
      ((∀ item ∈ Item.ofSource source, ¬item.ExceedsLimits) →
        Event.instructions run.events = Item.instructions (Item.ofSource source)) ∧
      ∀ before item after, Item.ofSource source = before ++ item :: after →
        (∀ earlier ∈ before, ¬earlier.ExceedsLimits) → item.ExceedsLimits →
        Event.instructions run.events = Item.instructions (before ++ [item]) := by
  have words := hm.holdsWords
  refine ⟨words.dispatch_answers_iff, fun source => ⟨words.runItems_answers_iff _, fun h => ?_,
    fun before item after hsource hbefore hitem => ?_⟩⟩
  · have all := words.instructions_runItems h []
    rw [List.append_nil] at all
    exact all.trans (List.append_nil _)
  · have later : (m.runItems before).machine.HoldsWords :=
      runItems_preserves (fun _ opcode operands h => h.dispatch opcode operands) words before
    rw [Machine.execute, hsource, words.instructions_runItems hbefore,
      later.instructions_runItems_cons hitem, Item.instructions_append]

/-- A number that no register has is no reason to end a run. -/
theorem answers_iff_unknown_register :
    zero.Reachable ∧ (∃ outcome, (zero.dispatch "add" "$t0,$99,$t1").result = .ok outcome) ∧
      ¬ExceedsLimits "add" "$t0,$99,$t1" :=
  ⟨.zero, ⟨.failed, rfl⟩, ((Reachable.answers_iff .zero).1 _ _).1 ⟨.failed, rfl⟩⟩

/-- A number of a register that is one digit too long ends a run. -/
theorem not_answers_overlong_register :
    ¬∃ outcome, (zero.dispatch "mfhi" (String.ofList ('$' :: List.replicate 4301 '1'))).result =
      .ok outcome := by
  have digits : ∀ c ∈ List.replicate 4301 '1', Text.isAsciiDigit c = true := by
    intro c hc
    rw [List.eq_of_mem_replicate hc]
    decide
  have token : IsToken (String.ofList ('$' :: List.replicate 4301 '1')) := by
    have nonempty : List.replicate 4301 '1' ≠ [] :=
      mt (List.replicate_eq_nil_iff _).1 (by decide)
    refine ⟨_, String.toList_ofList, nonempty, fun c hc => ?_⟩
    rw [Text.isAsciiAlphanumeric, digits c hc, Bool.or_true]
  have overlong : IsOverlong (String.ofList ('$' :: List.replicate 4301 '1')) := by
    refine ⟨_, String.toList_ofList, digits, ?_⟩
    rw [List.length_replicate]
    decide
  have exceeds : ExceedsLimits "mfhi" (String.ofList ('$' :: List.replicate 4301 '1')) :=
    ⟨.mfhi, rfl, .inr ⟨_, Operands.parse_of_isToken token "mfhi", overlong⟩⟩
  exact fun answer => (holdsWords_zero.dispatch_answers_iff _ _).1 answer exceeds

end Machine

end TinyMips
