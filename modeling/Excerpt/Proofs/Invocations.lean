import Excerpt.CommandLine.Run

/-!
How arguments lead to a command, and what its end leaves behind. A command is reached when the
arguments name it and nothing else is asked for first, and it does its work when its own arguments
are in order. However a run ends, nothing is on its output unless it succeeds.
-/

namespace Excerpt.CommandLine

variable (w : CellWidth) {access : FileAccess Id} {arguments before rest others : List Text}
  {name : Text} {command : Command}

/-- Unless it is a success, nothing is on the output. -/
def Outcome.Quiet (outcome : Outcome) : Prop :=
  outcome.status ≠ 0 ∨ outcome.crash ≠ none → outcome.out = []

theorem quiet_ofSession [Halves] (command : Command) (verbosity : Nat)
    (result : Except Stop Text × List LogEntry) :
    (Outcome.ofSession command verbosity result).Quiet := by
  obtain ⟨result, log⟩ := result
  cases result with
  | ok out => exact fun h => absurd h (by simp [Outcome.ofSession])
  | error stop => cases stop <;> exact fun _ => rfl

theorem exists_of_ofSession_ok [Halves] {verbosity : Nat}
    {result : Except Stop Text × List LogEntry}
    (h : (Outcome.ofSession command verbosity result).status = 0) :
    ∃ out log, result = (.ok out, log) := by
  obtain ⟨result, log⟩ := result
  cases result with
  | ok out => exact ⟨out, log, rfl⟩
  | error stop => cases stop <;> simp [Outcome.ofSession] at h

@[simp] theorem answer?_nil : answer? [] = none := rfl

theorem succeeds_of_answer? {before : List Given} {outcome : Outcome}
    (h : answer? before = some outcome) : outcome.status = 0 ∧ outcome.crash = none := by
  obtain ⟨given, -, hgiven⟩ := List.exists_of_findSome?_eq_some h
  cases given <;> simp at hgiven <;> subst hgiven <;> exact ⟨rfl, rfl⟩

section Command

variable {given : List Given}

/-- Without help or version in front of it, a command that is named is run. -/
theorem run_of_command [Platform] {before : List Given}
    (hprogram : split programOptions false arguments = .ok (before, name :: rest))
    (hname : Command.ofName? name = some command) (hanswer : answer? before = none) :
    (run w access arguments).run =
      (runCommand w access (before.count .verbose) command rest).run := by
  have harguments : arguments ≠ [] := by
    rintro rfl
    exact List.cons_ne_nil _ _ (congrArg Prod.snd (Except.ok.inj hprogram)).symm
  simp only [run, if_neg harguments, hprogram, hanswer, hname]

/-- A command whose own arguments are in order comes to what its session comes to. -/
theorem runCommand_of_chosen [Platform] (verbosity : Nat) {choices : Choices} {file : Text}
    (hcommand : split command.options true rest = .ok (given, others))
    (hhelp : given.contains .help = false)
    (hchosen : (Choices.ofArguments access command given others).run = .ok (choices, file)) :
    (runCommand w access verbosity command rest).run =
      .ofSession command verbosity ((session w access command choices file).run.run []).run := by
  simp only [runCommand, hcommand, hhelp, Bool.false_eq_true, if_false]
  rw [Id.run_bind, hchosen]
  rfl

/-- A command succeeds by telling how it is used or by a session that does. -/
theorem exists_of_runCommand_ok [Platform] {verbosity : Nat}
    (h : (runCommand w access verbosity command rest).run.status = 0) :
    (∃ given others, split command.options true rest = .ok (given, others) ∧
      given.contains .help = true) ∨
    ∃ given others choices file out log,
      split command.options true rest = .ok (given, others) ∧ given.contains .help = false ∧
      (Choices.ofArguments access command given others).run = .ok (choices, file) ∧
      ((session w access command choices file).run.run []).run = (.ok out, log) := by
  cases hsplit : split command.options true rest with
  | error e => simp [runCommand, hsplit, Outcome.ofUsage] at h
  | ok parts =>
      obtain ⟨given, others⟩ := parts
      cases hhelp : given.contains .help with
      | true => exact .inl ⟨given, others, rfl, hhelp⟩
      | false =>
          right
          cases hchosen : (Choices.ofArguments access command given others).run with
          | error e =>
              simp only [runCommand, hsplit, hhelp, Bool.false_eq_true, if_false] at h
              rw [Id.run_bind, hchosen] at h
              cases e <;> simp [Outcome.ofUsage] at h
          | ok parts =>
              obtain ⟨choices, file⟩ := parts
              rw [runCommand_of_chosen w verbosity hsplit hhelp hchosen] at h
              obtain ⟨out, log, hsession⟩ := exists_of_ofSession_ok h
              exact ⟨given, others, choices, file, out, log, rfl, hhelp, hchosen, hsession⟩

end Command

theorem quiet_runCommand [Platform] (verbosity : Nat) :
    (runCommand w access verbosity command rest).run.Quiet := by
  cases hsplit : split command.options true rest with
  | error e =>
      simp only [runCommand, hsplit]
      exact fun _ => rfl
  | ok parts =>
      obtain ⟨given, others⟩ := parts
      cases hhelp : given.contains .help with
      | true =>
          simp only [runCommand, hsplit, hhelp, if_true]
          exact fun h => absurd h (by simp [Outcome.help])
      | false =>
          cases hchosen : (Choices.ofArguments access command given others).run with
          | error e =>
              simp only [runCommand, hsplit, hhelp, Bool.false_eq_true, if_false]
              rw [Id.run_bind, hchosen]
              cases e <;> exact fun _ => rfl
          | ok parts =>
              obtain ⟨choices, file⟩ := parts
              rw [runCommand_of_chosen w verbosity hsplit hhelp hchosen]
              exact quiet_ofSession command verbosity _

/-- Whatever the arguments are, a run that does not succeed is quiet. -/
theorem quiet_run [Platform] (access : FileAccess Id) (arguments : List Text) :
    (run w access arguments).run.Quiet := by
  by_cases harguments : arguments = []
  · subst harguments
    exact fun h => absurd h (by simp [run, Outcome.help])
  cases hprogram : split programOptions false arguments with
  | error e =>
      simp only [run, if_neg harguments, hprogram]
      exact fun _ => rfl
  | ok parts =>
      obtain ⟨before, others⟩ := parts
      cases hanswer : answer? before with
      | some outcome =>
          obtain ⟨hstatus, hcrash⟩ := succeeds_of_answer? hanswer
          simp only [run, if_neg harguments, hprogram, hanswer]
          exact fun h => absurd h (by simp [hstatus, hcrash])
      | none =>
          cases others with
          | nil =>
              simp only [run, if_neg harguments, hprogram, hanswer]
              exact fun _ => rfl
          | cons name rest =>
              cases hname : Command.ofName? name with
              | some command =>
                  rw [run_of_command w hprogram hname hanswer]
                  exact quiet_runCommand w _
              | none =>
                  simp only [run, if_neg harguments, hprogram, hanswer, hname]
                  cases looksLikeOption name with
                  | true => exact fun h => absurd h (by simp [Outcome.help])
                  | false => exact fun _ => rfl

end Excerpt.CommandLine
