import CommandVetting.Proofs.Cli.GlobalOptions
import CommandVetting.Proofs.Cli.Audit
import CommandVetting.Proofs.Event.Layouts

/-!
# The log and the rest of a run

With a log directory the events of a run go to a file, in the layout of files, and nothing else changes:
the same results, the same notices and the same exit status. Events and notices of a command are said here
for themselves, since the standard error shows both.

* `Command.events`, `Command.notices`: what a command reports, and what it tells the user;
* `Command.emits_perform`: every command puts out these, the notices last;
* `Invocation.run_reports_events`: and so does every run;
* `map_withoutOrigin_fileLine`: the lines of a log, without the origins;
* **`log_dir_moves_log`**: the same command line with a log directory and without.
-/

namespace CommandVetting

/-! ## Events and notices -/

namespace Command

/-- The events of a command. -/
def events (json : Bool) (input : List UInt8) : Command → List Event
  | baseline p => if json then (baselineEvent? p).toList else []
  | audit src => match src.candidates? input with
    | some cs => cs.filterMap auditEvent? ++ [finishedEvent cs.length (deniedCount cs)]
    | none => []
  | harden _ | rules => []

/-- The lines of a command for the user, apart from its results. -/
def notices (json : Bool) (input : List UInt8) : Command → List Text
  | baseline p => if json || (Platform.ofKey? p).isSome then [] else [noBaselineNotice p]
  | audit src => if (src.candidates? input).isSome then [] else [decodingNotice]
  | harden _ | rules => []

/-- A notice is about a platform that is not known, or about an error. -/
theorem opening_of_mem_notices {json : Bool} {input : List UInt8} {c : Command} {n : Text}
    (h : n ∈ c.notices json input) :
    ("No baseline for platform '" : Text) <+: n ∨ ("Error: " : Text) <+: n := by
  cases c with
  | baseline p =>
    simp only [notices] at h
    split_ifs at h
    · cases h
    · rw [List.mem_singleton.mp h]
      exact .inl ⟨p ++ ("' (known: " : Text) ++ Json.joined ", " (Platform.all.map Platform.key) ++
        (")" : Text), rfl⟩
  | audit src =>
    simp only [notices] at h
    split_ifs at h
    · cases h
    · rw [List.mem_singleton.mp h]
      exact .inr (by decide)
  | harden k => cases h
  | rules => cases h

end Command

/-- The emissions are the events and the notices, besides results, and the notices are the last. -/
def Emits (es : List Emission) (events : List Event) (notices : List Text) : Prop :=
  ∃ fs : List Emission, es = fs ++ notices.map .notice ∧ (∀ e ∈ fs, e.notice? = none) ∧
    fs.filterMap Emission.event? = events

section Emits

variable {json : Bool} {input : List UInt8}

theorem emits_of_notice?_eq_none {es : List Emission} (h : ∀ e ∈ es, e.notice? = none) :
    Emits es (es.filterMap Emission.event?) [] :=
  ⟨es, (List.append_nil es).symm, h, rfl⟩

theorem emits_notice (t : Text) : Emits [.notice t] [] [t] := ⟨[], rfl, nofun, rfl⟩

theorem emits_results (ts : List Text) : Emits (ts.map .result) [] [] := by
  refine ⟨ts.map .result, by simp, fun e he => ?_, ?_⟩
  · obtain ⟨t, -, rfl⟩ := List.mem_map.mp he
    rfl
  · simp [List.filterMap_map, Function.comp_def, Emission.event?]

theorem emits_performBaseline (p : Text) : Emits (performBaseline json p)
    ((Command.baseline p).events json input) ((Command.baseline p).notices json input) := by
  cases json with
  | true =>
    have hes : ∀ e ∈ performBaseline true p, e.notice? = none := by
      intro e he
      simp only [performBaseline, if_true, List.mem_append, List.mem_map, List.mem_singleton] at he
      obtain ⟨x, -, rfl⟩ | rfl := he <;> rfl
    have hevents : (performBaseline true p).filterMap Emission.event? = (baselineEvent? p).toList := by
      simp [performBaseline, List.filterMap_append, List.filterMap_map, Function.comp_def,
        Emission.event?]
    have hemits := emits_of_notice?_eq_none hes
    rw [hevents] at hemits
    exact hemits
  | false =>
    simp only [performBaseline, Command.events, Command.notices, Bool.false_eq_true, if_false,
      Bool.false_or]
    cases Platform.ofKey? p with
    | some q =>
      have hemits := emits_results (q.tasks.map fun t => t.row)
      rw [List.map_map] at hemits
      exact hemits
    | none => exact emits_notice _

theorem emits_performAudit (cs : List Text) : Emits (performAudit json cs).emissions
    (cs.filterMap auditEvent? ++ [finishedEvent cs.length (deniedCount cs)]) [] := by
  rw [← events_performAudit json cs]
  exact emits_of_notice?_eq_none (notice?_performAudit json cs)

theorem emits_performRules : Emits (performRules json) [] [] := by
  cases json with
  | true => exact emits_results [_]
  | false =>
    have hemits := emits_results (Rule.table.map fun r => r.row)
    rw [List.map_map] at hemits
    exact hemits

/-- **Every command puts out its events and its notices**, the notices last. -/
theorem Command.emits_perform (c : Command) : Emits (c.perform json input).emissions
    (c.events json input) (c.notices json input) := by
  cases c with
  | baseline p => exact emits_performBaseline p
  | audit src =>
    cases src with
    | argument c => exact emits_performAudit [c]
    | stdin =>
      cases hc : Utf8.readLines? input with
      | some cs => simpa [perform, events, notices, Source.candidates?, hc] using emits_performAudit cs
      | none => simpa [perform, events, notices, Source.candidates?, hc] using emits_notice _
  | harden k => exact emits_results [_]
  | rules => exact emits_performRules

end Emits

namespace Invocation

variable {i : Invocation} {s : Surroundings}

theorem run_reports_events (h : i.opensLog s = true) : (i.run s).Reports s i
    (readyEvent :: i.command.events i.json s.stdin) (i.command.notices i.json s.stdin) := by
  obtain ⟨fs, hes, hfs, hevents⟩ : Emits (i.command.perform i.json s.stdin).emissions
      (i.command.events i.json s.stdin) (i.command.notices i.json s.stdin) :=
    Command.emits_perform i.command
  have hemissions : (i.perform s.stdin).emissions =
      (.event readyEvent :: fs) ++ (i.command.notices i.json s.stdin).map .notice := by
    rw [perform, hes, List.cons_append]
  rw [← hevents]
  exact run_reports h hemissions (List.forall_mem_cons.mpr ⟨rfl, hfs⟩)

end Invocation

/-! ## The log directory -/

/-- Without the origins, the lines of a log are those on the standard error. -/
theorem map_withoutOrigin_fileLine (es : List Event) :
    (es.map Event.fileLine).map Event.withoutOrigin = es.map Event.line := by
  rw [List.map_map]
  exact List.map_congr_left fun e _ => e.withoutOrigin_fileLine

/-- **A log directory moves the log**, and nothing else. When a command line that names no log directory
is given one, anywhere before its options end, the standard output and the exit status stay. The events
that were shown on the standard error are in the file, in the same order, after one event of its own if
the filter lets it through; their lines there are the same but for the origins that stand in them. The
other lines are still on the standard error. Nothing else changes among the files, but that the folders of
the log may be new. If the log cannot be opened, that is all that is said, and no file has changed. -/
theorem log_dir_moves_log {s : Surroundings} {a b unit : List Text} {dir : Text} {i : Invocation}
    (hargs : Request.ofArguments (a ++ b) = .ok (.perform i)) (hi : i.logDir = none)
    (ha : "--".toList ∉ a) (hunit : ArgToken.GivesLogDir dir unit) :
    let filter := Filter.ofSetting s.setting
    let plain := runArguments s (a ++ b)
    let logged := runArguments s (a ++ unit ++ b)
    let events := (readyEvent :: i.command.events i.json s.stdin).filter filter.admits
    let notices := i.command.notices i.json s.stdin
    let opening (path : Text) : List Text :=
      if filter.admits (openedEvent path) then
        [("INFO ThreadId(01) cmd_audit::utils::logger: 61: Logging initialized - writing to " : Text) ++
          path.flatMap Event.visible]
      else []
    plain.stderr = events.map Event.line ++ notices ∧ plain.files = s.files ∧
    (∀ n ∈ notices, ("No baseline for platform '" : Text) <+: n ∨ ("Error: " : Text) <+: n) ∧
    (events.map Event.fileLine).map Event.withoutOrigin = events.map Event.line ∧
    (∀ log, s.files.openLog dir s.stamp = .ok log →
      log.path = FilePath.join dir (logName s.stamp) ∧
      logged.stdout = plain.stdout ∧ logged.exit = plain.exit ∧ logged.stderr = notices ∧
      logged.files = log.write (opening log.path ++ events.map Event.fileLine) ∧
      logged.files.find? log.place = some (.file (opening log.path ++ events.map Event.fileLine)) ∧
      ∀ p, p ≠ log.place → s.files.KeepsAt logged.files p) ∧
    (∀ e f, s.files.openLog dir s.stamp = .error (e, f) →
      logged = ⟨1, [], [e.message], f⟩ ∧ ("Error: Failed to create log " : Text) <+: e.message ∧
      s.files.GrowsTo f ∧
      ∀ p lines, f.find? p = some (.file lines) ↔ s.files.find? p = some (.file lines)) := by
  intro filter plain logged events notices opening
  have hlogged : logged = ({ i with logDir := some dir } : Invocation).run s :=
    runArguments_of_ok (Request.ofArguments_insert_logDir hargs hi ha hunit)
  have hplain : plain = i.run s := runArguments_of_ok hargs
  have hopens : i.opensLog s = true := by rw [Invocation.opensLog, hi, Option.all_none]
  obtain ⟨hexit, hout⟩ := Invocation.run_of_opensLog hopens
  have hrep := Invocation.run_reports_events hopens
  rw [Outcome.Reports, hi] at hrep
  rw [hlogged, hplain]
  refine ⟨hrep.1, hrep.2, fun _ => Command.opening_of_mem_notices, map_withoutOrigin_fileLine events,
    ?opened, ?failed⟩
  case opened =>
    intro log hlog
    have hopens' : ({ i with logDir := some dir } : Invocation).opensLog s = true :=
      Invocation.opensLog_iff.mpr fun d hd => ⟨log, by cases hd; exact hlog⟩
    obtain ⟨hexit', hout'⟩ := Invocation.run_of_opensLog hopens'
    obtain ⟨hstderr, log', hlog', hfiles⟩ := Invocation.run_reports_events hopens'
    obtain rfl : log = log' := Except.ok.inj (hlog.symm.trans hlog')
    rw [shown_cons, LogTarget.line, openedEvent_fileLine] at hfiles
    refine ⟨(FileTree.openLog_eq_ok_iff.mp hlog).1, hout'.trans hout.symm, hexit'.trans hexit.symm,
      hstderr, hfiles, ?_, fun p hp => ?_⟩
    · rw [hfiles]
      exact LogFile.find?_write hlog _
    · rw [hfiles]
      exact LogFile.keepsAt_write hlog _ hp
  case failed =>
    intro e f he
    have hgrows := FileTree.growsTo_of_openLog he
    exact ⟨by simp [Invocation.run, he], e.opening_message, hgrows, hgrows.find?_eq_file_iff⟩

/-- An audit of an input that is no text. What is said about it stays on the standard error. -/
theorem log_dir_moves_log_undecoded :
    let s : Surroundings := ⟨some "debug", "2024-12-06-14-30-25", .fresh ["home"], [0xE2, 0x82]⟩
    let path : Text := "logs/cmd-audit.2024-12-06-14-30-25.log"
    let place : Place := ["home", "logs", "cmd-audit.2024-12-06-14-30-25.log"]
    let notice : Text := "Error: stream did not contain valid UTF-8"
    let opening : Text := "INFO ThreadId(01) cmd_audit::utils::logger: 61: Logging initialized - writing to "
    let plain := runArguments s ["audit", "--stdin"]
    let logged := runArguments s ["audit", "--log-dir=logs", "--stdin"]
    plain.stderr = [("DEBUG Engine ready version=\"1.1.0\" mode=Audit" : Text), notice] ∧
      logged.stderr = [notice] ∧ logged.exit = plain.exit ∧
      logged.files.find? place = some (.file [opening ++ path,
        "DEBUG ThreadId(01) cmd_audit: 77: Engine ready version=\"1.1.0\" mode=Audit"]) := by
  intro s path place notice opening plain logged
  let a : List Text := ["audit"]
  let b : List Text := ["--stdin"]
  have hargs : Request.ofArguments (a ++ b) = .ok (.perform ⟨false, none, .audit .stdin⟩) := by
    decide +kernel
  have hunit : ArgToken.GivesLogDir "logs" ["--log-dir=logs"] := .joined (by decide +kernel)
  obtain ⟨hstderr, -, -, -, hopen, -⟩ := log_dir_moves_log (s := s) hargs rfl (by decide +kernel) hunit
  -- What is said after the folder has been created and the empty file in it.
  let folder : FileTree := s.files.put ["home", "logs"] .folder
  have hlog : s.files.openLog "logs" s.stamp = .ok ⟨path, place, folder.put place (.file [])⟩ :=
    FileTree.openLog_eq_ok_iff.mpr ⟨by decide +kernel, folder, by decide +kernel, by decide +kernel⟩
  obtain ⟨-, -, hexit, hnotices, -, hwritten, -⟩ := hopen _ hlog
  have hevents : (readyEvent :: Command.events false s.stdin (.audit .stdin)).filter
      (Filter.ofSetting s.setting).admits = [readyEvent] := by
    decide +kernel
  have hadmits : (Filter.ofSetting s.setting).admits (openedEvent path) = true := by decide +kernel
  have hvisible : path.flatMap Event.visible = path := by decide +kernel
  have hsaid : Command.notices false s.stdin (.audit .stdin) = [notice] := by decide +kernel
  rw [hevents, hsaid] at hstderr
  rw [hsaid] at hnotices
  dsimp only at hwritten
  rw [if_pos hadmits, hevents, hvisible] at hwritten
  refine ⟨?_, hnotices, hexit, ?_⟩
  · rw [← readyEvent_line]
    exact hstderr
  · rw [← readyEvent_fileLine]
    exact hwritten

end CommandVetting
