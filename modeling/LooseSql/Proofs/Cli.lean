import LooseSql.Cli.Run
import LooseSql.Proofs.Report.Table

/-!
# Runs that break off

A run breaks off exactly if the columns or the conditions of a script are to be shown for readers
and one of their cells is longer than a column can be wide (`Cli.run_status_eq_iff`). Like a run
that fails, it leaves nothing on the output (`Cli.output_eq_nil_of_status_ne`).
-/

namespace LooseSql.Cli

/-- The table that shows the result of a command for readers, if its result is shown as one. -/
def Command.resultTable? (sql : Text) : Command → Option Table
  | .columns => some (Report.columnTable (columnDetails sql))
  | .conditions => some (Report.conditionTable (whereConditions sql))
  | _ => none

theorem renderTable_eq_crash_iff {coloured : Bool} {format : Format} {json : JsonValue}
    {table : Table} (h : ∀ heading ∈ table.headings, heading.length ≤ Table.maxWidth) :
    renderTable coloured format json table = .error .crash ↔
      format = .table ∧ ¬ table.IsNarrow := by
  have hmade : (Report.ofTable? coloured table).isSome ↔ table.IsNarrow :=
    Table.ofTable?_isSome_iff h
  rw [← hmade]
  cases format with
  | json => simp [renderTable]
  | table =>
    rw [renderTable]
    cases Report.ofTable? coloured table <;> simp

theorem renderVariant_ne_crash {coloured : Bool} {format : Format} {operation : String}
    (variant : Option Text) :
    renderVariant coloured format operation variant ≠ .error .crash := by
  cases variant <;> simp [renderVariant]

/-- Only a table for readers can make a command break off. -/
theorem perform_eq_crash_iff {coloured : Bool} {format : Format} {budget : Budget}
    {command : Command} {sql : Text} :
    perform coloured format budget command sql = .error .crash ↔
      format = .table ∧ ∃ table ∈ command.resultTable? sql, ¬ table.IsNarrow := by
  cases command with
  | columns =>
    simpa [perform, Command.resultTable?] using
      renderTable_eq_crash_iff (Report.length_le_of_mem_columnTable (columnDetails sql))
  | conditions =>
    simpa [perform, Command.resultTable?] using
      renderTable_eq_crash_iff (Report.length_le_of_mem_conditionTable (whereConditions sql))
  | analyze =>
    rw [perform]
    cases analyze? budget sql <;> simp [Command.resultTable?]
  | databases | table | orderBy => simp [perform, Command.resultTable?]
  | count | top | distinct | order => simp [perform, Command.resultTable?, renderVariant_ne_crash]

/-- A command whose result is a table holds nothing that could be wrong with it. -/
theorem checkCommand_of_mem {command : Command} {sql : Text} {table : Table}
    (h : table ∈ command.resultTable? sql) : checkCommand command = .ok () := by
  cases command with
  | columns | conditions => rfl
  | databases | table | orderBy | analyze | count | top | distinct | order => cases h

/-- What fails in front of a step keeps it from breaking off. -/
theorem bind_eq_crash_iff {α β : Type} {x : Except Failure α} {f : α → Except Stop β} :
    x.mapError .failure >>= f = .error .crash ↔ ∃ a, x = .ok a ∧ f a = .error .crash := by
  cases x with
  | error failure => simp [Except.mapError, bind, Except.bind]
  | ok a => simp [Except.mapError, bind, Except.bind]

theorem carryOut_eq_crash_iff {environment : Environment} {invocation : Invocation} :
    carryOut environment invocation = .error .crash ↔
      (∃ budget, budgetOf environment invocation.budget = .ok budget) ∧
        ∃ sql, scriptOf environment invocation.sql = .ok sql ∧ invocation.format = .table ∧
          ∃ table ∈ invocation.command.resultTable? sql, ¬ table.IsNarrow := by
  rw [carryOut, bind_eq_crash_iff]
  simp only [bind_eq_crash_iff, perform_eq_crash_iff]
  constructor
  · rintro ⟨budget, hbudget, -, -, sql, hsql, hresult⟩
    exact ⟨⟨budget, hbudget⟩, sql, hsql, hresult⟩
  · rintro ⟨⟨budget, hbudget⟩, sql, hsql, hformat, table, htable, hwide⟩
    have hcheck := checkCommand_of_mem htable
    exact ⟨budget, hbudget, (), hcheck, sql, hsql, hformat, table, htable, hwide⟩

/-- The status tells a run that breaks off from the others. -/
theorem respond_status_eq_iff {environment : Environment} {request : Request} :
    (respond environment request).status = 101 ↔
      ∃ invocation, request = .run invocation ∧
        carryOut environment invocation = .error .crash := by
  cases request with
  | version | help => simp [respond]
  | run invocation =>
    cases hlines : carryOut environment invocation with
    | ok lines => simp [respond, hlines]
    | error stop => cases stop <;> simp [respond, hlines]

/-- A run breaks off exactly if nothing fails up to its result, and the result is to be shown for
readers as a table that is not narrow. -/
theorem run_status_eq_iff {environment : Environment} {words : List Text} :
    (run environment words).status = 101 ↔
      ∃ invocation, Request.parse words environment.budgetVariable = .ok (.run invocation) ∧
        (∃ budget, budgetOf environment invocation.budget = .ok budget) ∧
        ∃ sql, scriptOf environment invocation.sql = .ok sql ∧ invocation.format = .table ∧
          ∃ table ∈ invocation.command.resultTable? sql, ¬ table.IsNarrow := by
  rw [run]
  cases Request.parse words environment.budgetVariable with
  | error e => simp
  | ok request =>
    simp only [respond_status_eq_iff, carryOut_eq_crash_iff, Except.ok.injEq]

/-- Only a run that succeeds leaves something on the output. -/
theorem output_eq_nil_of_status_ne {environment : Environment} {words : List Text}
    (h : (run environment words).status ≠ 0) : (run environment words).output = [] := by
  revert h
  rw [run]
  cases Request.parse words environment.budgetVariable with
  | error e => simp
  | ok request =>
    cases request with
    | version | help => simp [respond]
    | run invocation =>
      simp only [respond]
      split <;> simp

end LooseSql.Cli
