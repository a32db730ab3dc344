import JavaOutline.Cli.Arguments

/-!
# JavaOutline.Proofs.CommandLines

Command lines that ask for an extraction.

An operand may be any text that neither is empty nor begins with a dash, and so may the path
behind an option. With the source file as the operand, any of the two flags, and the output to
a path or to be printed, a command line asks for just that (`requests_stdout`,
`requests_output`, `requests_default`).
-/

namespace JavaOutline.Cli

/-- The command line asks for an extraction, and for no log. -/
def Requests (args : List String) (r : ExtractRequest) : Prop :=
  Invocation.ofArguments none args = .ok ⟨none, .extract r⟩

/-- The text is a value or an operand wherever one may stand. -/
def IsPlain (text : String) : Prop := text.toList.head? ≠ some '-' ∧ text ≠ ""

instance (text : String) : Decidable (IsPlain text) :=
  inferInstanceAs (Decidable (_ ∧ _))

/-- The flags of an extraction. -/
def flagArguments (strict all : Bool) : List String :=
  (if strict then ["--strict"] else []) ++ if all then ["--all"] else []

/-- The options that the flags are. -/
def flagOptions (strict all : Bool) : List (Opt × String) :=
  (if strict then [(.strict, "")] else []) ++ if all then [(.all, "")] else []

variable {input path : String} {strict all : Bool}

theorem readArguments_operand (h : IsPlain input) (rest : List String) :
    readArguments .extract .empty none (input :: rest)
      = readArguments .extract ⟨[], [input]⟩ none rest := by
  have hadd : Arguments.empty.addOperand .extract input = .ok ⟨[], [input]⟩ := by
    simp [Arguments.addOperand, Arguments.empty, h.2, Level.operandLimit]
  rw [readArguments]
  split <;> simp_all [IsPlain, bind, Except.bind]

theorem readArguments_flags (strict all : Bool) (operands rest : List String) :
    readArguments .extract ⟨[], operands⟩ none (flagArguments strict all ++ rest)
      = readArguments .extract ⟨flagOptions strict all, operands⟩ none rest := by
  cases strict <;> cases all <;> rfl

theorem readArguments_output (h : IsPlain path) (operands : List String) :
    readArguments .extract ⟨flagOptions strict all, operands⟩ none ["-o", path]
      = .ok (⟨flagOptions strict all ++ [(.output, path)], operands⟩, []) := by
  have hadd : Arguments.addOption ⟨flagOptions strict all, operands⟩ .output path
      = .ok ⟨flagOptions strict all ++ [(.output, path)], operands⟩ := by
    have hhas : Arguments.has ⟨flagOptions strict all, operands⟩ .output = false := by
      cases strict <;> cases all <;> rfl
    simp [Arguments.addOption, hhas, h.2]
  have hvalue : isValue path = true := by simp [isValue, h.1]
  have hpending : readArguments .extract ⟨flagOptions strict all, operands⟩ none ["-o", path]
      = readArguments .extract ⟨flagOptions strict all, operands⟩ (some .output) [path] := rfl
  rw [hpending]
  simp [readArguments, hvalue, hadd, bind, Except.bind]

/-- What the arguments behind the command ask for. -/
theorem requests_of_readArguments {args : List String} {a : Arguments} {r : ExtractRequest}
    (hread : readArguments .extract .empty none args = .ok (a, []))
    (hlog : a.value? .logDirectory = none) (hrequest : ExtractRequest.ofArguments a = .ok r) :
    Requests ("extract" :: args) r := by
  have htop : readArguments .top .empty none ("extract" :: args)
      = .ok (.empty, "extract" :: args) := rfl
  have hname : Level.ofName? "extract" = some .extract := rfl
  have hinner : logDirectory? a none = .ok none := by simp [logDirectory?, hlog]
  have houter : logDirectory? .empty none = .ok none := rfl
  simp [Requests, Invocation.ofArguments, htop, hname, hread, hinner, houter, Command.ofArguments,
    hrequest, bind, Except.bind, pure, Except.pure]

theorem requests_stdout (h : IsPlain input) (strict all : Bool) :
    Requests ("extract" :: input :: (flagArguments strict all ++ ["--stdout"]))
      ⟨input, none, strict, all⟩ := by
  refine requests_of_readArguments
    (a := ⟨flagOptions strict all ++ [(.stdout, "")], [input]⟩) ?_ ?_ ?_
  · rw [readArguments_operand h, readArguments_flags]
    cases strict <;> cases all <;> rfl
  · cases strict <;> cases all <;> rfl
  · cases strict <;> cases all <;> rfl

theorem requests_output (hinput : IsPlain input) (hpath : IsPlain path) (strict all : Bool) :
    Requests ("extract" :: input :: (flagArguments strict all ++ ["-o", path]))
      ⟨input, some path, strict, all⟩ := by
  refine requests_of_readArguments
    (a := ⟨flagOptions strict all ++ [(.output, path)], [input]⟩) ?_ ?_ ?_
  · rw [readArguments_operand hinput, readArguments_flags,
      readArguments_output hpath]
  · cases strict <;> cases all <;> rfl
  · cases strict <;> cases all <;> rfl

theorem requests_default (h : IsPlain input) (strict all : Bool) :
    Requests ("extract" :: input :: flagArguments strict all)
      ⟨input, some "output.json", strict, all⟩ := by
  refine requests_of_readArguments (a := ⟨flagOptions strict all, [input]⟩) ?_ ?_ ?_
  · rw [readArguments_operand h, ← List.append_nil (flagArguments strict all), readArguments_flags]
    rfl
  · cases strict <;> cases all <;> rfl
  · cases strict <;> cases all <;> rfl

end JavaOutline.Cli
