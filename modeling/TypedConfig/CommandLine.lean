import TypedConfig.Stage

namespace TypedConfig

structure Outcome where
  exitCode : Nat
  stdout : String
  stderr : String
deriving DecidableEq

/-- A run that ends with a report on standard error. Trouble with input or output has an exit code
of its own. -/
def Outcome.ofDiagnostic (d : Diagnostic) : Outcome :=
  ⟨if d.category = .inputOutput then 2 else 1, "", d.message ++ "\n"⟩

/-- The outcome has no output, and a report on a line of its own. -/
def Outcome.Reports (o : Outcome) : Prop :=
  o.stdout = "" ∧ ∃ report : String, o.stderr = "[CONFXML] " ++ report ++ "\n" ∧
    ∀ c ∈ report.toList, Text.isControl c = false

def decodeSource (input : ByteArray) : Except Diagnostic String :=
  match String.fromUTF8? input with
  | some source => .ok source
  | none => .error (.ofInputOutput "stream did not contain valid UTF-8")

theorem decodeSource_of_not_valid {input : ByteArray} (h : ¬ input.IsValidUTF8) :
    decodeSource input = .error (.ofInputOutput "stream did not contain valid UTF-8") := by
  have undecodable : String.fromUTF8? input = none := dif_neg h
  rw [decodeSource, undecodable]

theorem decodeSource_toByteArray (source : String) :
    decodeSource source.toByteArray = .ok source := by
  have decoded : String.fromUTF8? source.toByteArray = some source := dif_pos source.isValidUTF8
  rw [decodeSource, decoded]

def runCommand (input : ByteArray) : Outcome :=
  match decodeSource input >>= compilePretty with
  | .ok text => ⟨0, text, ""⟩
  | .error d => .ofDiagnostic d

variable {source : String} {e : Diagnostic}

theorem runCommand_of_not_valid {input : ByteArray} (h : ¬ input.IsValidUTF8) :
    runCommand input = .ofDiagnostic (.ofInputOutput "stream did not contain valid UTF-8") := by
  rw [runCommand, decodeSource_of_not_valid h]
  rfl

theorem runCommand_of_ok {text : String} (h : compilePretty source = .ok text) :
    runCommand source.toByteArray = ⟨0, text, ""⟩ := by
  rw [runCommand, decodeSource_toByteArray]
  simp [Bind.bind, Except.bind, h]

theorem runCommand_of_error (h : compilePretty source = .error e) :
    runCommand source.toByteArray = .ofDiagnostic e := by
  rw [runCommand, decodeSource_toByteArray]
  simp [Bind.bind, Except.bind, h]

theorem runCommand_cases (input : ByteArray) :
    (¬ input.IsValidUTF8 ∧
      runCommand input = .ofDiagnostic (.ofInputOutput "stream did not contain valid UTF-8")) ∨
    ∃ source : String, source.toByteArray = input ∧
      ((∃ e, compilePretty source = .error e ∧ runCommand input = .ofDiagnostic e) ∨
        ∃ text, compilePretty source = .ok text ∧ runCommand input = ⟨0, text, ""⟩) := by
  by_cases valid : input.IsValidUTF8
  · refine .inr ⟨⟨input, valid⟩, rfl, ?_⟩
    cases compiled : compilePretty ⟨input, valid⟩ with
    | error e => exact .inl ⟨e, rfl, runCommand_of_error compiled⟩
    | ok text => exact .inr ⟨text, rfl, runCommand_of_ok compiled⟩
  · exact .inl ⟨valid, runCommand_of_not_valid valid⟩

end TypedConfig
