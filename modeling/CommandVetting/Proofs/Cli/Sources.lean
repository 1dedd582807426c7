import CommandVetting.Proofs.Cli.Streams

/-!
# The two sources of a command

A command can be given on the command line or as the only line of the standard input. The two ways
agree unless the command has a line end in it or ends in a carriage return, which a line loses.

* `Source.candidates?_line`: the only line of an input;
* `Invocation.run_congr`: a run depends on what is performed and on where its log goes;
* `argumentLine`, `stdinLine`: the command lines of the two ways, with the option for JSON anywhere;
* **`audit_argument_eq_audit_stdin`**: the two ways leave the same.
-/

namespace CommandVetting

theorem Source.candidates?_line {c : Text} (hline : '\n' ∉ c) (hend : c.getLast? ≠ some '\r') :
    Source.stdin.candidates? (Utf8.encode (c ++ ['\n'])) = some [c] := by
  have hinput : inputOfLines [c] = Utf8.encode (c ++ ['\n']) := by simp [inputOfLines]
  rw [← hinput, candidates?_inputOfLines (by simpa using hline), List.map_singleton,
    Text.chomp_eq_self hend]

/-- Two invocations that perform the same with their logs in the same place leave the same. -/
theorem Invocation.run_congr {i j : Invocation} {s : Surroundings} {input : List UInt8}
    (hlog : i.logDir = j.logDir) (hp : i.perform s.stdin = j.perform input) :
    i.run s = j.run (s.withInput input) := by
  rw [run, run, hlog, hp]
  rfl

/-- An audit of a command, and an audit of the standard input that holds it as its only line. -/
theorem Invocation.run_argument_eq_run_stdin {c : Text} (hline : '\n' ∉ c)
    (hend : c.getLast? ≠ some '\r') (json : Bool) (logDir : Option Text) (s : Surroundings) :
    (⟨json, logDir, .audit (.argument c)⟩ : Invocation).run s =
      (⟨json, logDir, .audit .stdin⟩ : Invocation).run
        (s.withInput (Utf8.encode (c ++ ['\n']))) := by
  refine run_congr rfl ?_
  rw [perform_audit rfl (Source.candidates?_line hline hend), perform_audit rfl rfl]

/-- The arguments that ask for JSON, or do not. -/
def jsonArguments (json : Bool) : List Text := if json then ["--json"] else []

/-- A command line with a command to be audited. What stands behind the two hyphens is no option. -/
def argumentLine (x y : List Text) (c : Text) : List Text :=
  x ++ ("audit" : Text) :: y ++ [("--" : Text), c]

/-- A command line that audits the standard input. -/
def stdinLine (x y z : List Text) : List Text :=
  x ++ ("audit" : Text) :: y ++ ("--stdin" : Text) :: z

theorem ofArguments_argumentLine {x y : List Text} {json : Bool} (h : x ++ y = jsonArguments json)
    (c : Text) : Request.ofArguments (argumentLine x y c) =
      .ok (.perform ⟨json, none, .audit (.argument c)⟩) := by
  cases json with
  | false =>
    obtain ⟨rfl, rfl⟩ := List.append_eq_nil_iff.mp h
    rfl
  | true =>
    obtain ⟨rfl, rfl⟩ | ⟨rfl, rfl⟩ := List.append_eq_singleton_iff.mp h <;> rfl

theorem ofArguments_stdinLine {x y z : List Text} {json : Bool}
    (h : x ++ y ++ z = jsonArguments json) : Request.ofArguments (stdinLine x y z) =
      .ok (.perform ⟨json, none, .audit .stdin⟩) := by
  cases json with
  | false =>
    obtain ⟨hxy, rfl⟩ := List.append_eq_nil_iff.mp h
    obtain ⟨rfl, rfl⟩ := List.append_eq_nil_iff.mp hxy
    rfl
  | true =>
    obtain ⟨hxy, rfl⟩ | ⟨hxy, rfl⟩ := List.append_eq_singleton_iff.mp h
    · obtain ⟨rfl, rfl⟩ := List.append_eq_nil_iff.mp hxy
      rfl
    · obtain ⟨rfl, rfl⟩ | ⟨rfl, rfl⟩ := List.append_eq_singleton_iff.mp hxy <;> rfl

/-- **The two sources of a command agree.** A command without a line feed, and without a carriage return
at its end, leaves the same whether it stands on the command line behind two hyphens, however it is
spelled, or is the only line of the standard input; the option for JSON may stand wherever it can. The
same holds of any two command lines that ask for this. -/
theorem audit_argument_eq_audit_stdin {c : Text} (hline : '\n' ∉ c) (hend : c.getLast? ≠ some '\r')
    (s : Surroundings) :
    let fed := s.withInput (Utf8.encode (c ++ ['\n']))
    (∀ (json : Bool) (x y x' y' z' : List Text), x ++ y = jsonArguments json →
      x' ++ y' ++ z' = jsonArguments json →
      Request.ofArguments (argumentLine x y c) = .ok (.perform ⟨json, none, .audit (.argument c)⟩) ∧
      Request.ofArguments (stdinLine x' y' z') = .ok (.perform ⟨json, none, .audit .stdin⟩) ∧
      runArguments s (argumentLine x y c) = runArguments fed (stdinLine x' y' z')) ∧
    (∀ (args args' : List Text) (json : Bool) (logDir : Option Text),
      Request.ofArguments args = .ok (.perform ⟨json, logDir, .audit (.argument c)⟩) →
      Request.ofArguments args' = .ok (.perform ⟨json, logDir, .audit .stdin⟩) →
      runArguments s args = runArguments fed args') := by
  intro fed
  have hrun : ∀ (args args' : List Text) (json : Bool) (logDir : Option Text),
      Request.ofArguments args = .ok (.perform ⟨json, logDir, .audit (.argument c)⟩) →
      Request.ofArguments args' = .ok (.perform ⟨json, logDir, .audit .stdin⟩) →
      runArguments s args = runArguments fed args' := by
    intro args args' json logDir hargs hargs'
    rw [runArguments_of_ok hargs, runArguments_of_ok hargs']
    exact Invocation.run_argument_eq_run_stdin hline hend json logDir s
  refine ⟨fun json x y x' y' z' h h' => ?_, hrun⟩
  have hargs := ofArguments_argumentLine h c
  have hargs' := ofArguments_stdinLine h'
  exact ⟨hargs, hargs', hrun _ _ _ _ hargs hargs'⟩

/-- A command that is spelled like the option for the standard input, with JSON. -/
theorem audit_argument_eq_audit_stdin_option :
    let s : Surroundings := ⟨some "debug", "2024-12-06-14-30-25", .fresh ["home"], []⟩
    runArguments s ["audit", "--json", "--", "--stdin"] =
      runArguments (s.withInput (Utf8.encode "--stdin\n")) ["--json", "audit", "--stdin"] := by
  intro s
  have hline : '\n' ∉ ("--stdin" : Text) := by decide +kernel
  have hend : ("--stdin" : Text).getLast? ≠ some '\r' := by decide +kernel
  obtain ⟨hrun, -⟩ := audit_argument_eq_audit_stdin hline hend s
  exact (hrun true [] ["--json"] ["--json"] [] [] rfl rfl).2.2

/-- A carriage return at the end is part of a command, but not of a line. -/
example :
    let s : Surroundings := ⟨none, "2024-12-06-14-30-25", .fresh ["home"], []⟩
    (runArguments s ["audit", "--", "\r"]).stdout ≠
      (runArguments (s.withInput (Utf8.encode "\r\n")) ["audit", "--stdin"]).stdout := by
  decide +kernel

end CommandVetting
