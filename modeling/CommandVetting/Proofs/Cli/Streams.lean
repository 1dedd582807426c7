import CommandVetting.Proofs.Cli.Stdin

/-!
# Streams of commands

Each line of the standard input is judged on its own, so that an audit of a long input is put together
from audits of its parts, and the order of the lines matters only for the order of the records.

* `deniedCount_append`, `deniedCount_perm`: counting the denials;
* `Invocation.run_append`: two inputs one after the other;
* `Invocation.run_perm`: the same lines in another order;
* **`audit_of_stream`**: both, for every command line that audits the standard input.
-/

namespace CommandVetting

/-! ## Counting -/

theorem deniedCount_append (cs ds : List Text) :
    deniedCount (cs ++ ds) = deniedCount cs + deniedCount ds := List.countP_append

theorem deniedCount_perm {cs ds : List Text} (h : cs.Perm ds) : deniedCount cs = deniedCount ds :=
  h.countP_eq _

/-! ## Lines as input -/

/-- The bytes of lines, each with a line feed behind it. -/
def inputOfLines (ls : List Text) : List UInt8 := Utf8.encode (ls.flatMap (· ++ ['\n']))

/-- The record that is printed for a line of the input. -/
def recordOfLine (json : Bool) (line : Text) : Text := (audit line.chomp).print json line.chomp

theorem candidates?_inputOfLines {ls : List Text} (h : ∀ l ∈ ls, '\n' ∉ l) :
    Source.stdin.candidates? (inputOfLines ls) = some (ls.map Text.chomp) := by
  rw [← Text.lines_flatMap h]
  exact Source.candidates?_stdin_eq_some (Utf8.toByteArray_eq_iff.mpr rfl)

/-! ## Runs -/

namespace Invocation

variable {i : Invocation} {s : Surroundings}

/-- A log that cannot be opened cannot be opened whatever the input is. -/
theorem run_withInput_of_not_opensLog (h : i.opensLog s = false) (x : List UInt8) :
    (i.run (s.withInput x)).exit = 1 ∧ (i.run (s.withInput x)).stdout = [] := by
  obtain ⟨e, f, he, -⟩ := run_of_not_opensLog (s := s.withInput x) h
  simp [he]

/-- **An audit of two inputs one after the other**, of which the first has ended its last line. -/
theorem run_append {x y : List UInt8} {cx cy : List Text} (hi : i.command = .audit .stdin)
    (hx : Source.stdin.candidates? x = some cx) (hy : Source.stdin.candidates? y = some cy)
    (hend : ∀ b ∈ x.getLast?, b = 0x0A) :
    (i.run (s.withInput (x ++ y))).stdout =
      (i.run (s.withInput x)).stdout ++ (i.run (s.withInput y)).stdout ∧
    (i.run (s.withInput (x ++ y))).exit =
      max (i.run (s.withInput x)).exit (i.run (s.withInput y)).exit ∧
    (i.opensLog s = true → (i.run (s.withInput (x ++ y))).Reports s i (readyEvent ::
      (cx.filterMap auditEvent? ++ cy.filterMap auditEvent? ++
        [finishedEvent (cx.length + cy.length) (deniedCount cx + deniedCount cy)])) []) := by
  cases hlog : i.opensLog s with
  | false =>
    obtain ⟨hexit, hout⟩ := run_withInput_of_not_opensLog hlog (x ++ y)
    obtain ⟨hexitx, houtx⟩ := run_withInput_of_not_opensLog hlog x
    obtain ⟨hexity, houty⟩ := run_withInput_of_not_opensLog hlog y
    simp [hexit, hout, hexitx, houtx, hexity, houty]
  | true =>
    have hxy : Source.stdin.candidates? (x ++ y) = some (cx ++ cy) :=
      Utf8.readLines?_append hx hy hend
    obtain ⟨hexit, hout, hrep⟩ := run_audit (s := s.withInput (x ++ y)) hlog hi hxy
    obtain ⟨hexitx, houtx, -⟩ := run_audit (s := s.withInput x) hlog hi hx
    obtain ⟨hexity, houty, -⟩ := run_audit (s := s.withInput y) hlog hi hy
    refine ⟨?_, ?_, fun _ => ?_⟩
    · rw [hout, houtx, houty, List.flatMap_append]
    · rw [hexit, hexitx, hexity, deniedCount_append]
      split_ifs <;> omega
    · rw [List.filterMap_append, List.length_append, deniedCount_append] at hrep
      exact hrep

/-- **An audit of lines in any order.** The records stand in the order of the lines; the numbers that are
reported and the exit status do not depend on it. -/
theorem run_perm {ls ms : List Text} (hi : i.command = .audit .stdin) (hls : ∀ l ∈ ls, '\n' ∉ l)
    (hp : ms.Perm ls) :
    (i.run (s.withInput (inputOfLines ms))).exit = (i.run (s.withInput (inputOfLines ls))).exit ∧
    (i.opensLog s = true →
      (i.run (s.withInput (inputOfLines ms))).stdout =
        (ms.map (recordOfLine i.json)).flatMap (· ++ ['\n']) ∧
      (i.run (s.withInput (inputOfLines ms))).Reports s i (readyEvent ::
        ((ms.map Text.chomp).filterMap auditEvent? ++
          [finishedEvent ls.length (deniedCount (ls.map Text.chomp))])) []) := by
  have hms : ∀ l ∈ ms, '\n' ∉ l := fun l hl => hls l (hp.mem_iff.mp hl)
  have hden : deniedCount (ms.map Text.chomp) = deniedCount (ls.map Text.chomp) :=
    deniedCount_perm (hp.map Text.chomp)
  cases hlog : i.opensLog s with
  | false =>
    have hexit := (run_withInput_of_not_opensLog hlog (inputOfLines ls)).1
    have hexit' := (run_withInput_of_not_opensLog hlog (inputOfLines ms)).1
    simp [hexit, hexit']
  | true =>
    obtain ⟨hexit, -, -⟩ := run_audit (s := s.withInput (inputOfLines ls)) hlog hi
      (candidates?_inputOfLines hls)
    obtain ⟨hexit', hout, hrep⟩ := run_audit (s := s.withInput (inputOfLines ms)) hlog hi
      (candidates?_inputOfLines hms)
    refine ⟨?_, fun _ => ⟨?_, ?_⟩⟩
    · rw [hexit, hexit', hden]
    · rw [hout, List.flatMap_map, List.flatMap_map]
      rfl
    · rw [List.length_map, hp.length_eq, hden] at hrep
      exact hrep

end Invocation

/-- **Streams of commands.** An audit of two inputs one after the other, of which the first is empty or
has ended its last line, prints what the audits of the two print, and reports the events of their
commands in this order and the sums of their numbers; its exit status is the greater of theirs. So
lines can be put into any order: the records follow them, and the numbers and the exit status stay. -/
theorem audit_of_stream {s : Surroundings} {args : List Text} {i : Invocation}
    (hargs : Request.ofArguments args = .ok (.perform i)) (hi : i.command = .audit .stdin) :
    let run (input : List UInt8) : Outcome := runArguments (s.withInput input) args
    (∀ x y : List UInt8, x.toByteArray.IsValidUTF8 → y.toByteArray.IsValidUTF8 →
      (∀ b ∈ x.getLast?, b = 0x0A) → ∃ cx cy,
        Source.stdin.candidates? x = some cx ∧ Source.stdin.candidates? y = some cy ∧
        (run (x ++ y)).stdout = (run x).stdout ++ (run y).stdout ∧
        (run (x ++ y)).exit = max (run x).exit (run y).exit ∧
        (i.opensLog s = true →
          (run x).Reports s i (readyEvent ::
            (cx.filterMap auditEvent? ++ [finishedEvent cx.length (deniedCount cx)])) [] ∧
          (run y).Reports s i (readyEvent ::
            (cy.filterMap auditEvent? ++ [finishedEvent cy.length (deniedCount cy)])) [] ∧
          (run (x ++ y)).Reports s i (readyEvent ::
            (cx.filterMap auditEvent? ++ cy.filterMap auditEvent? ++
              [finishedEvent (cx.length + cy.length) (deniedCount cx + deniedCount cy)])) [])) ∧
    (∀ ls ms : List Text, (∀ l ∈ ls, '\n' ∉ l) → ms.Perm ls →
      (run (inputOfLines ms)).exit = (run (inputOfLines ls)).exit ∧
      (i.opensLog s = true →
        (run (inputOfLines ms)).stdout = (ms.map (recordOfLine i.json)).flatMap (· ++ ['\n']) ∧
        (run (inputOfLines ms)).Reports s i (readyEvent ::
          ((ms.map Text.chomp).filterMap auditEvent? ++
            [finishedEvent ls.length (deniedCount (ls.map Text.chomp))])) [])) := by
  intro run
  have hrun : ∀ x, run x = i.run (s.withInput x) := fun x => runArguments_of_ok hargs
  simp only [hrun]
  refine ⟨fun x y hx hy hend => ?_, fun ls ms hls hp => Invocation.run_perm hi hls hp⟩
  obtain ⟨t, ht⟩ := hx
  obtain ⟨u, hu⟩ := hy
  have hcx := Source.candidates?_stdin_eq_some ht
  have hcy := Source.candidates?_stdin_eq_some hu
  obtain ⟨hout, hexit, hrep⟩ := Invocation.run_append (s := s) hi hcx hcy hend
  refine ⟨Text.lines t, Text.lines u, hcx, hcy, hout, hexit, fun hlog => ⟨?_, ?_, hrep hlog⟩⟩
  · exact (Invocation.run_audit (s := s.withInput x) hlog hi hcx).2.2
  · exact (Invocation.run_audit (s := s.withInput y) hlog hi hcy).2.2

/-- Two lines, an empty one among them, and a last line without its end; and two lines that change
places. -/
theorem audit_of_stream_reboot :
    let s : Surroundings := ⟨none, "2024-12-06-14-30-25", .fresh ["home"], []⟩
    let run (input : List UInt8) : Outcome := runArguments (s.withInput input) ["audit", "--stdin"]
    let x : List UInt8 := inputOfLines ["id\r", ""]
    let y : List UInt8 := Utf8.encode "reboot"
    (run (x ++ y)).stdout = (run x).stdout ++ (run y).stdout ∧
      (run (x ++ y)).exit = max (run x).exit (run y).exit ∧
      (run (inputOfLines ["reboot", "id\r"])).exit = (run (inputOfLines ["id\r", "reboot"])).exit := by
  intro s run x y
  have hargs : Request.ofArguments ["audit", "--stdin"] =
      .ok (.perform ⟨false, none, .audit .stdin⟩) := by
    decide +kernel
  obtain ⟨happend, hperm⟩ := audit_of_stream (s := s) hargs rfl
  have hvalid : ∀ t : Text, (Utf8.encode t).toByteArray.IsValidUTF8 :=
    fun t => Utf8.isValidUTF8_iff.mpr ⟨t, rfl⟩
  have hend : ∀ b ∈ x.getLast?, b = 0x0A := by
    rintro b ⟨⟩
    decide +kernel
  obtain ⟨cx, cy, -, -, hout, hexit, -⟩ := happend x y (hvalid _) (hvalid _) hend
  refine ⟨hout, hexit, (hperm ["id\r", "reboot"] ["reboot", "id\r"] ?_ (.swap _ _ _)).1⟩
  simp

end CommandVetting
