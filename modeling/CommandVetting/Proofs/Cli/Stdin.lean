import CommandVetting.Proofs.Cli.Audit
import CommandVetting.Proofs.Text.Utf8

/-!
# The standard input of an audit

The candidates on the standard input are the lines of a text. The input is read line by line, but it is
one line that cannot be decoded, wherever it stands, that keeps all the others from being audited.

* `Source.candidates?_stdin_eq_some`: the candidates that are read are the lines of the text;
* **`audit_of_stdin`**: input that is no text, and input that is.
-/

namespace CommandVetting

theorem Source.candidates?_stdin_eq_some {input : List UInt8} {t : Text}
    (h : input.toByteArray = t.utf8Encode) : Source.stdin.candidates? input = some t.lines := by
  rw [Utf8.toByteArray_eq_iff] at h
  exact Utf8.readLines?_eq_some_iff.mpr ⟨t, h, rfl⟩

theorem Source.candidates?_stdin_eq_none {input : List UInt8}
    (h : ¬ input.toByteArray.IsValidUTF8) : Source.stdin.candidates? input = none := by
  rw [Utf8.isValidUTF8_iff] at h
  exact Utf8.readLines?_eq_none_iff.mpr h

/-- **An audit of the standard input.** Some line of the input cannot be decoded exactly when the input
as a whole is no text, and then nothing is printed and no candidate audited. The candidates of an input
that is a text are the lines of the text. -/
theorem audit_of_stdin {s : Surroundings} {args : List Text} {i : Invocation}
    (hargs : Request.ofArguments args = .ok (.perform i)) (hi : i.command = .audit .stdin) :
    ((∃ l ∈ s.stdin.splitOn 0x0A, Utf8.decode? l = none) ↔ ¬ s.stdin.toByteArray.IsValidUTF8) ∧
    (¬ s.stdin.toByteArray.IsValidUTF8 →
      (runArguments s args).stdout = [] ∧ (runArguments s args).exit = 1 ∧
      (i.opensLog s = true → (runArguments s args).Reports s i [readyEvent] [decodingNotice])) ∧
    (∀ t : Text, s.stdin.toByteArray = t.utf8Encode → ∃ ls, (∀ ls', t.HasLines ls' ↔ ls' = ls) ∧
      Utf8.readLines? s.stdin = some ls ∧ (i.opensLog s = true →
        (runArguments s args).stdout = (ls.flatMap fun c => (audit c).print i.json c ++ ['\n']) ∧
        (runArguments s args).Reports s i
          (readyEvent :: (ls.filterMap auditEvent? ++ [finishedEvent ls.length (deniedCount ls)]))
          [])) := by
  rw [runArguments_of_ok hargs]
  refine ⟨?_, fun hinvalid => ?_, fun t ht => ?_⟩
  · rw [Utf8.exists_undecodable_iff, Utf8.isValidUTF8_iff]
  · have hc := Source.candidates?_stdin_eq_none hinvalid
    cases hlog : i.opensLog s with
    | true =>
      obtain ⟨hexit, hout, hrep⟩ := Invocation.run_undecoded hlog hi hc
      exact ⟨hout, hexit, fun _ => hrep⟩
    | false =>
      obtain ⟨e, f, he, -⟩ := Invocation.run_of_not_opensLog hlog
      simp [he]
  · have hc := Source.candidates?_stdin_eq_some ht
    exact ⟨t.lines, fun _ => Text.hasLines_iff, hc,
      fun hlog => (Invocation.run_audit hlog hi hc).2⟩

/-- The last line of the input breaks off inside a character, after a line that would be denied. -/
theorem audit_of_stdin_truncated :
    let input : List UInt8 := [0x66, 0x72, 0x70, 0x0A, 0xE2, 0x82]
    let s : Surroundings := ⟨some "debug", "2024-12-06-14-30-25", .fresh ["home"], input⟩
    let args : List Text := ["audit", "--stdin", "--json"]
    ¬ input.toByteArray.IsValidUTF8 ∧ (runArguments s args).stdout = [] ∧
      (runArguments s args).exit = 1 := by
  intro input s args
  have hargs : Request.ofArguments args = .ok (.perform ⟨true, none, .audit .stdin⟩) := by
    decide +kernel
  obtain ⟨hinvalid, hnone, -⟩ := audit_of_stdin (s := s) hargs rfl
  have hline : ∃ l ∈ s.stdin.splitOn 0x0A, Utf8.decode? l = none := by decide +kernel
  obtain ⟨hout, hexit, -⟩ := hnone (hinvalid.mp hline)
  exact ⟨hinvalid.mp hline, hout, hexit⟩

end CommandVetting
