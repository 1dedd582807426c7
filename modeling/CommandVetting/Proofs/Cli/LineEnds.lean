import CommandVetting.Proofs.Cli.Sources

/-!
# Line ends

Lines can be written with a line feed behind each, or with a carriage return and a line feed, and the last
line without either. An audit of the standard input does not tell these apart.

* `LineEnd`, `Writes`: **the ways to write a list of lines**;
* `hasLines_iff_writes`: what they have in common;
* `runArguments_congr_of_candidates?`: what a run sees of the standard input;
* **`audit_of_line_ends`**: all ways to write a list are read as the list, and leave the same.
-/

namespace CommandVetting

variable {ls : List Text} {t : Text}

/-! ## Writing lines -/

/-- The end of a line. -/
inductive LineEnd where
  | lf
  | crlf
  deriving DecidableEq, Repr

def LineEnd.text : LineEnd → Text
  | lf => ['\n']
  | crlf => ['\r', '\n']

/-- **The text writes the lines**, each with an end of its own. The last line may do without, unless it is
empty. -/
inductive Writes : List Text → Text → Prop where
  | nil : Writes [] []
  | last {l : Text} (hl : l ≠ []) : Writes [l] l
  | cons {l t : Text} {ls : List Text} (e : LineEnd) (rest : Writes ls t) :
    Writes (l :: ls) (l ++ e.text ++ t)

/-- The lines can be told apart from their ends. -/
def AreLines (ls : List Text) : Prop := ∀ l ∈ ls, '\n' ∉ l ∧ l.getLast? ≠ some '\r'

theorem AreLines.tail {l : Text} (h : AreLines (l :: ls)) : AreLines ls :=
  fun m hm => h m (List.mem_cons_of_mem l hm)

theorem Writes.hasLines (h : Writes ls t) (hls : AreLines ls) : t.HasLines ls := by
  induction h with
  | nil => exact .nil
  | last hl => exact .last hl (hls _ List.mem_cons_self).1
  | @cons l t ls e rest ih =>
    obtain ⟨hline, hcr⟩ := hls l List.mem_cons_self
    rw [List.append_assoc]
    cases e with
    | lf => exact .lf hline hcr (ih hls.tail)
    | crlf => exact .crlf hline (ih hls.tail)

theorem writes_of_hasLines (h : t.HasLines ls) : Writes ls t := by
  induction h with
  | nil => exact .nil
  | last hl h => exact .last hl
  | @lf l r ls h hcr rest ih =>
    have hcons := Writes.cons (l := l) .lf ih
    rwa [List.append_assoc] at hcons
  | @crlf l r ls h rest ih =>
    have hcons := Writes.cons (l := l) .crlf ih
    rwa [List.append_assoc] at hcons

/-- **A text writes lines exactly if these are its lines.** -/
theorem hasLines_iff_writes (hls : AreLines ls) : t.HasLines ls ↔ Writes ls t :=
  ⟨writes_of_hasLines, fun h => h.hasLines hls⟩

theorem candidates?_encode_eq_some_iff (hls : AreLines ls) :
    Source.stdin.candidates? (Utf8.encode t) = some ls ↔ Writes ls t := by
  have hread : Source.stdin.candidates? (Utf8.encode t) = some t.lines :=
    Source.candidates?_stdin_eq_some (Utf8.toByteArray_eq_iff.mpr rfl)
  rw [hread, Option.some_inj, eq_comm, ← Text.hasLines_iff, hasLines_iff_writes hls]

/-! ## Runs -/

theorem Command.perform_congr {x y : List UInt8}
    (h : Source.stdin.candidates? x = Source.stdin.candidates? y) (json : Bool) (c : Command) :
    c.perform json x = c.perform json y := by
  have hlines : Utf8.readLines? x = Utf8.readLines? y := h
  cases c with
  | audit src => cases src with
    | argument c => rfl
    | stdin => simp only [perform, hlines]
  | baseline p | harden k | rules => rfl

/-- **A run sees of the standard input the candidates** that can be read from it, and nothing else. -/
theorem runArguments_congr_of_candidates? {x y : List UInt8}
    (h : Source.stdin.candidates? x = Source.stdin.candidates? y) (s : Surroundings)
    (args : List Text) : runArguments (s.withInput x) args = runArguments (s.withInput y) args := by
  refine runArguments_rel (R := Eq) (fun _ => rfl) (s.withInput x) (s.withInput y) rfl fun i _ => ?_
  have hp : i.perform (s.withInput x).stdin = i.perform y := by
    rw [Invocation.perform, Invocation.perform, ← Command.perform_congr h]
    rfl
  exact Invocation.run_congr (s := s.withInput x) rfl hp

/-- **An audit does not see line ends.** Lines without line feeds in them and carriage returns at their
ends are read from exactly those texts that write them, whatever the ends of the lines are and whether
or not the last line has one. So every run leaves the same for all these texts: an audit prints the
records of these lines, reports their events and ends with the status that they call for. -/
theorem audit_of_line_ends {ls : List Text} (hls : AreLines ls) :
    (∀ t, Source.stdin.candidates? (Utf8.encode t) = some ls ↔ Writes ls t) ∧
    (∀ t t' : Text, Writes ls t → Writes ls t' → ∀ (s : Surroundings) (args : List Text),
      runArguments (s.withInput (Utf8.encode t)) args =
        runArguments (s.withInput (Utf8.encode t')) args) ∧
    (∀ (s : Surroundings) (args : List Text) (i : Invocation),
      Request.ofArguments args = .ok (.perform i) → i.command = .audit .stdin →
      i.opensLog s = true → ∀ t, Writes ls t →
        let o := runArguments (s.withInput (Utf8.encode t)) args
        o.exit = (if deniedCount ls = 0 then 0 else 1) ∧
        o.stdout = (ls.flatMap fun c => (audit c).print i.json c ++ ['\n']) ∧
        o.Reports s i
          (readyEvent :: (ls.filterMap auditEvent? ++ [finishedEvent ls.length (deniedCount ls)])) []) := by
  have hread : ∀ t, Source.stdin.candidates? (Utf8.encode t) = some ls ↔ Writes ls t :=
    fun t => candidates?_encode_eq_some_iff hls
  refine ⟨hread, fun t t' ht ht' s args => ?_, fun s args i hargs hi hlog t ht => ?_⟩
  · refine runArguments_congr_of_candidates? ?_ s args
    rw [(hread t).mpr ht, (hread t').mpr ht']
  · rw [runArguments_of_ok hargs]
    exact Invocation.run_audit (s := s.withInput (Utf8.encode t)) hlog hi ((hread t).mpr ht)

/-- Three lines, one of them empty, with mixed ends, and without an end behind the last one. -/
theorem audit_of_line_ends_mixed :
    let s : Surroundings := ⟨some "debug", "2024-12-06-14-30-25", .fresh ["home"], []⟩
    let run (t : Text) : Outcome := runArguments (s.withInput (Utf8.encode t)) ["audit", "--stdin"]
    run "id\r\n\nfrp" = run "id\n\r\nfrp\r\n" ∧ (run "id\r\n\nfrp").exit = 1 := by
  intro s run
  have hls : AreLines (["id", "", "frp"] : List Text) := by simp [AreLines]
  obtain ⟨-, hsame, haudit⟩ := audit_of_line_ends hls
  have hopen : Writes (["id", "", "frp"] : List Text) "id\r\n\nfrp" :=
    .cons (l := "id") .crlf (.cons (l := []) .lf (.last (by decide)))
  have hclosed : Writes (["id", "", "frp"] : List Text) "id\n\r\nfrp\r\n" :=
    .cons (l := "id") .lf (.cons (l := []) .crlf (.cons (l := "frp") .crlf .nil))
  have hargs : Request.ofArguments ["audit", "--stdin"] =
      .ok (.perform ⟨false, none, .audit .stdin⟩) := by
    decide +kernel
  have hdenied : deniedCount (["id", "", "frp"] : List Text) ≠ 0 := by decide +kernel
  refine ⟨hsame _ _ hopen hclosed s _, ?_⟩
  rw [(haudit s _ _ hargs rfl rfl _ hopen).1, if_neg hdenied]

end CommandVetting
