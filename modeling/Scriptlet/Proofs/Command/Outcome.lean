import Scriptlet.Command.Invocation

/-! # Outcomes of invocations

The arguments of a command line are read as an invocation. An invocation first settles the
log level, then prepares its command, and then prints, stores or runs what was prepared.
Each of these stages has its equation here.
-/

namespace Scriptlet

namespace Logged

variable {α β : Type}

@[simp]
theorem ok_bind (value : α) (log : List LogLine) (second : α → Logged β) :
    (⟨.ok value, log⟩ : Logged α) >>= second =
      ⟨(second value).result, log ++ (second value).log⟩ := rfl

@[simp]
theorem error_bind (error : CommandError) (log : List LogLine) (second : α → Logged β) :
    (⟨.error error, log⟩ : Logged α) >>= second = ⟨.error error, log⟩ := rfl

@[simp]
theorem pure_eq (value : α) : (pure value : Logged α) = ⟨.ok value, []⟩ := rfl

@[simp]
theorem ofExcept_ok {ε : Type} (wrap : ε → CommandError) (value : α) :
    ofExcept wrap (.ok value) = ⟨.ok value, []⟩ := rfl

@[simp]
theorem ofExcept_error {ε : Type} (wrap : ε → CommandError) (error : ε) :
    (ofExcept wrap (.error error) : Logged α) = ⟨.error (wrap error), []⟩ := rfl

end Logged

namespace Invocation

variable {steps : Nat} {files : FileTree} {input : Input} {invocation : Invocation}
  {settled : LogLevel} {error : CommandError}

/-- Without a log level an invocation fails. -/
theorem carryOut_of_level_error (unsettled : level files invocation.options = .error error) :
    invocation.carryOut steps files input =
      some (failure files invocation.options.trace [] [] error) := by
  rw [carryOut, unsettled]

/-- A command that cannot be prepared fails, behind its log. -/
theorem carryOut_of_job_error (known : level files invocation.options = .ok settled)
    (failed : (job files input invocation).result = .error error) :
    invocation.carryOut steps files input =
      some (failure files invocation.options.trace []
        (LogLine.renderAll settled (job files input invocation).log) error) := by
  simp only [carryOut, known, failed]

/-- A command that prepares a text prints it. -/
theorem carryOut_of_print (known : level files invocation.options = .ok settled) {text : Bytes}
    (prepared : (job files input invocation).result = .ok (.print text)) :
    invocation.carryOut steps files input =
      some ⟨0, text, LogLine.renderAll settled (job files input invocation).log, files⟩ := by
  simp only [carryOut, known, prepared]

/-- A command that prepares a file stores it. -/
theorem carryOut_of_store (known : level files invocation.options = .ok settled)
    {changed : FileTree} (prepared : (job files input invocation).result = .ok (.store changed)) :
    invocation.carryOut steps files input =
      some ⟨0, [], LogLine.renderAll settled (job files input invocation).log, changed⟩ := by
  simp only [carryOut, known, prepared]

/-- A command that prepares a program runs it. -/
theorem carryOut_of_execute (known : level files invocation.options = .ok settled)
    {program : Program} (prepared : (job files input invocation).result = .ok (.execute program)) :
    invocation.carryOut steps files input =
      runOutcome files invocation.options.trace settled (job files input invocation).log
        (program.run .empty none steps) := by
  simp only [carryOut, known, prepared]

variable {arguments : List String} {mistake : UsageError}

/-- A mistake in the options is a mistake in the command line. -/
theorem ofArguments_of_read_error (unread : Options.read {} arguments = .error mistake) :
    ofArguments arguments = .error mistake := by
  rw [ofArguments, unread]
  rfl

/-- Behind the options a command is read, unless they ask for help. -/
theorem ofArguments_of_read {options : Options} {rest : List String}
    (read : Options.read {} arguments = .ok (options, rest)) :
    ofArguments arguments =
      if options.help then .ok ⟨options, .help⟩
      else (Command.read rest).map (Invocation.mk options) := by
  simp only [ofArguments, read, bind, Except.bind, pure, Except.pure]
  split
  · rfl
  · cases Command.read rest <;> rfl

/-- A command line with a mistake fails. -/
theorem invoke_of_error (misread : ofArguments arguments = .error mistake) :
    invoke steps files input arguments = some (failure files false [] [] (.usage mistake)) := by
  rw [invoke, misread]

/-- A command line that was understood is carried out. -/
theorem invoke_of_ok (understood : ofArguments arguments = .ok invocation) :
    invoke steps files input arguments = invocation.carryOut steps files input := by
  rw [invoke, understood]

end Invocation

end Scriptlet
