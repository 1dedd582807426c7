import Mathlib.Data.List.Basic
import Mathlib.Tactic.Common
import CommandVetting.Proofs.Cli.Files

/-!
# What a run leaves

What a run puts out goes to three places: results to the standard output, notices to the standard
error, and the events that the filter admits to the standard error or to the log file.

* `Filter.shown`: the lines in which a filter shows events **at each of the two places**;
* `Invocation.opensLog`: the log can be opened, if there is to be one;
* `Surroundings.withInput`: the same surroundings with another standard input;
* `Outcome.Reports`: the events that a run reports, wherever its log is, and its notices;
* `Invocation.run_of_not_opensLog`: **without its log a run does nothing**, and no file changes;
* **`Invocation.run_reports`**: the events of a performance are reported in their order.
-/

namespace CommandVetting

/-- The lines in which a filter shows events at a place. -/
def Filter.shown (f : Filter) (target : LogTarget) (es : List Event) : List Text :=
  (es.filter f.admits).map target.line

/-! ## Emissions -/

def Emission.notice? : Emission → Option Text
  | notice t => some t
  | result _ | event _ => none

theorem stdoutText_append (es fs : List Emission) :
    stdoutText (es ++ fs) = stdoutText es ++ stdoutText fs := List.flatMap_append

theorem stderrLines_append (f : Filter) (target : LogTarget) (es fs : List Emission) :
    stderrLines f target (es ++ fs) = stderrLines f target es ++ stderrLines f target fs :=
  List.filterMap_append

theorem stdoutText_events (es : List Event) : stdoutText (es.map .event) = [] := by
  simp [stdoutText, List.flatMap_map, Emission.onStdout]

theorem stdoutText_results (ts : List Text) :
    stdoutText (ts.map .result) = ts.flatMap (· ++ ['\n']) := by
  simp [stdoutText, List.flatMap_map, Emission.onStdout]

theorem shown_cons (f : Filter) (target : LogTarget) (e : Event) (es : List Event) :
    f.shown target (e :: es) = (if f.admits e then [target.line e] else []) ++ f.shown target es := by
  cases h : f.admits e <;> simp [Filter.shown, h]

theorem shown_eq_filterMap (f : Filter) (target : LogTarget) (es : List Event) :
    f.shown target es = es.filterMap fun e => if f.admits e then some (target.line e) else none := by
  induction es with
  | nil => rfl
  | cons e es ih => cases h : f.admits e <;> simp [shown_cons, h, ih]

/-- A log file shows the events. -/
theorem logLines_file (f : Filter) (es : List Emission) :
    logLines f .file es = f.shown .file (es.filterMap Emission.event?) := by
  rw [shown_eq_filterMap, List.filterMap_filterMap]
  refine List.filterMap_congr fun e _ => ?_
  cases e <;> rfl

/-- Beside a log file, the standard error has the notices only. -/
theorem stderrLines_file (f : Filter) (es : List Emission) :
    stderrLines f .file es = es.filterMap Emission.notice? := by
  refine List.filterMap_congr fun e _ => ?_
  cases e <;> rfl

/-- Without notices, the standard error shows the events. -/
theorem stderrLines_stderr {es : List Emission} (f : Filter) (h : ∀ e ∈ es, e.notice? = none) :
    stderrLines f .stderr es = f.shown .stderr (es.filterMap Emission.event?) := by
  rw [shown_eq_filterMap, List.filterMap_filterMap]
  refine List.filterMap_congr fun e he => ?_
  cases e with
  | notice t => cases h _ he
  | result t => rfl
  | event e => rfl

/-! ## Runs -/

/-- The log of the invocation can be opened, if there is to be one. -/
def Invocation.opensLog (i : Invocation) (s : Surroundings) : Bool :=
  i.logDir.all fun dir => (s.files.openLog dir s.stamp).isOk

theorem Invocation.opensLog_iff {i : Invocation} {s : Surroundings} : i.opensLog s = true ↔
    ∀ dir, i.logDir = some dir → ∃ log, s.files.openLog dir s.stamp = .ok log := by
  rw [opensLog, Option.all_eq_true]
  refine forall₂_congr fun dir _ => ?_
  cases s.files.openLog dir s.stamp with
  | ok log => exact iff_of_true rfl ⟨log, rfl⟩
  | error e => exact iff_of_false (by simp [Except.isOk, Except.toBool]) (by simp)

/-- The surroundings with another standard input. -/
def Surroundings.withInput (s : Surroundings) (input : List UInt8) : Surroundings :=
  { s with stdin := input }

/-- The run reports the events where the invocation wants its log, those that the filter admits, and
says nothing to the user but the notices, after the events. -/
def Outcome.Reports (o : Outcome) (s : Surroundings) (i : Invocation) (es : List Event)
    (notices : List Text) : Prop :=
  match i.logDir with
  | none => o.stderr = (Filter.ofSetting s.setting).shown .stderr es ++ notices ∧ o.files = s.files
  | some dir => o.stderr = notices ∧ ∃ log, s.files.openLog dir s.stamp = .ok log ∧
      o.files = log.write ((Filter.ofSetting s.setting).shown .file (openedEvent log.path :: es))

namespace Invocation

variable {i : Invocation} {s : Surroundings}

/-- **Without its log a run does nothing** but say why. It leaves folders at most. -/
theorem run_of_not_opensLog (h : i.opensLog s = false) : ∃ (e : LogFailure) (f : FileTree),
    i.run s = ⟨1, [], [e.message], f⟩ ∧ s.files.GrowsTo f := by
  rw [← Bool.not_eq_true, opensLog_iff] at h
  push Not at h
  obtain ⟨dir, hdir, hlog⟩ := h
  cases ho : s.files.openLog dir s.stamp with
  | ok log => exact absurd ho (hlog log)
  | error u =>
    obtain ⟨e, f⟩ := u
    exact ⟨e, f, by simp [run, hdir, ho], FileTree.growsTo_of_openLog ho⟩

theorem run_of_opensLog (h : i.opensLog s = true) :
    (i.run s).exit = (i.perform s.stdin).exit ∧
      (i.run s).stdout = stdoutText (i.perform s.stdin).emissions := by
  cases hdir : i.logDir with
  | none => simp [run, hdir]
  | some dir =>
    obtain ⟨log, ho⟩ := opensLog_iff.mp h dir hdir
    simp [run, hdir, ho, stdoutText, Emission.onStdout]

/-- **The events of a performance are reported in their order**, and so are the notices after them. -/
theorem run_reports (h : i.opensLog s = true) {es : List Emission} {notices : List Text}
    (hp : (i.perform s.stdin).emissions = es ++ notices.map .notice)
    (hes : ∀ e ∈ es, e.notice? = none) :
    (i.run s).Reports s i (es.filterMap Emission.event?) notices := by
  have hn : ∀ f target, stderrLines f target (notices.map .notice) = notices := by
    intro f target
    simp [stderrLines, List.filterMap_map, Emission.onStderr?]
  have he : (notices.map Emission.notice).filterMap Emission.event? = [] := by
    simp [List.filterMap_map, Function.comp_def, Emission.event?]
  have hnone : es.filterMap Emission.notice? = [] := List.filterMap_eq_nil_iff.mpr hes
  rw [Outcome.Reports]
  cases hdir : i.logDir with
  | none =>
    refine ⟨?_, by simp [run, hdir]⟩
    simp only [run, hdir, hp]
    rw [stderrLines_append, stderrLines_stderr _ hes, hn]
  | some dir =>
    obtain ⟨log, ho⟩ := opensLog_iff.mp h dir hdir
    simp only [run, hdir, ho, hp]
    refine ⟨?_, log, rfl, ?_⟩
    · rw [← List.cons_append, stderrLines_append, stderrLines_file, hn, List.filterMap_cons, hnone]
      rfl
    · rw [logLines_file, List.filterMap_cons, List.filterMap_append, he, List.append_nil]
      rfl

end Invocation

end CommandVetting
