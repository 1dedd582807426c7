import CommandVetting.Proofs.Cli.LogFile
import CommandVetting.Proofs.Event.Settings

/-!
# The log filter and the rest of a run

The log filter hides events. It has no part in what a run does: the results and the exit status are those
of every other filter, and so are the lines for the user that are no events.

* `Surroundings.withSetting`: the same surroundings with another setting of the filter;
* `runArguments_withSetting`: **results do not depend on the setting**;
* `filter_filter_admits`: the events of a log, and those of a log that shows less;
* `Invocation.stderr_of_asksFor`: the lines on the standard error under a threshold;
* **`log_filter_hides_events`**: the same command line under two settings.
-/

namespace CommandVetting

/-- The surroundings with another setting of the log filter. -/
def Surroundings.withSetting (s : Surroundings) (setting : Option Text) : Surroundings :=
  { s with setting := setting }

variable {s : Surroundings} {x y : Option Text} {l m : Threshold}

/-! ## Results -/

theorem Invocation.run_withSetting (i : Invocation) :
    (i.run (s.withSetting x)).stdout = (i.run s).stdout ∧
      (i.run (s.withSetting x)).exit = (i.run s).exit := by
  cases hdir : i.logDir with
  | none => simp [run, hdir, Surroundings.withSetting]
  | some dir => cases ho : s.files.openLog dir s.stamp with
    | error e => simp [run, hdir, ho, Surroundings.withSetting]
    | ok log => simp [run, hdir, ho, Surroundings.withSetting]

/-- **Results do not depend on the setting of the log filter**, whatever it is. -/
theorem runArguments_withSetting (args : List Text) :
    (runArguments (s.withSetting x) args).stdout = (runArguments s args).stdout ∧
      (runArguments (s.withSetting x) args).exit = (runArguments s args).exit :=
  runArguments_rel (R := fun o o' => o.stdout = o'.stdout ∧ o.exit = o'.exit) (fun _ => ⟨rfl, rfl⟩)
    (s.withSetting x) s rfl fun i _ => i.run_withSetting

/-- Without an invocation there is nothing to report. -/
theorem runArguments_withSetting_of_ne {args : List Text}
    (h : ∀ i, Request.ofArguments args ≠ .ok (.perform i)) :
    runArguments (s.withSetting x) args = runArguments s args :=
  runArguments_rel (R := Eq) (fun _ => rfl) (s.withSetting x) s rfl fun i hi => absurd hi (h i)

/-! ## Events -/

theorem filter_filter_admits (h : l.verbosity ≤ m.verbosity) (es : List Event) :
    (es.filter m.admits).filter l.admits = es.filter l.admits := by
  rw [List.filter_filter]
  refine List.filter_congr fun e _ => ?_
  rw [Bool.and_eq_left_iff_imp]
  exact fun hl => Threshold.admits_mono h hl

theorem Invocation.stderr_of_asksFor {i : Invocation} (h : AsksFor s.setting l) (hi : i.logDir = none) :
    (i.run s).stderr = ((readyEvent :: i.command.events i.json s.stdin).filter l.admits).map Event.line ++
      i.command.notices i.json s.stdin := by
  have hopens : i.opensLog s = true := by rw [opensLog, hi, Option.all_none]
  have hrep := run_reports_events hopens
  rw [Outcome.Reports, hi] at hrep
  rw [hrep.1, Filter.shown, funext h.admits_ofSetting, LogTarget.line]

/-- **The log filter hides events, and does nothing else.** Under two settings that ask for a threshold, a
command line has the same results and the same exit status. If it has no log directory and the first
threshold is not the more verbose one, the lines on the standard error under the first setting are those
under the second without the events that the first threshold does not admit: the others stay in their
order, and so do the lines that are no events. A command line without an invocation is not concerned. -/
theorem log_filter_hides_events (s : Surroundings) (args : List Text) {x y : Option Text}
    {l m : Threshold} (hx : AsksFor x l) (hy : AsksFor y m) :
    let low := runArguments (s.withSetting x) args
    let high := runArguments (s.withSetting y) args
    low.stdout = high.stdout ∧ low.exit = high.exit ∧
    (l.verbosity ≤ m.verbosity → ∀ i, Request.ofArguments args = .ok (.perform i) → i.logDir = none →
      let shown := (readyEvent :: i.command.events i.json s.stdin).filter m.admits
      let notices := i.command.notices i.json s.stdin
      high.stderr = shown.map Event.line ++ notices ∧
        low.stderr = (shown.filter l.admits).map Event.line ++ notices) ∧
    ((∀ i, Request.ofArguments args ≠ .ok (.perform i)) → low.stderr = high.stderr) := by
  intro low high
  obtain ⟨hout, hexit⟩ : low.stdout = _ ∧ low.exit = _ := runArguments_withSetting args
  obtain ⟨hout', hexit'⟩ : high.stdout = _ ∧ high.exit = _ := runArguments_withSetting args
  refine ⟨hout.trans hout'.symm, hexit.trans hexit'.symm, fun hle i hargs hi => ?_, fun hnone => ?_⟩
  · intro shown notices
    have hlow : low = i.run (s.withSetting x) := runArguments_of_ok hargs
    have hhigh : high = i.run (s.withSetting y) := runArguments_of_ok hargs
    rw [hlow, hhigh, filter_filter_admits hle]
    exact ⟨Invocation.stderr_of_asksFor hy hi, Invocation.stderr_of_asksFor hx hi⟩
  · have hlow : low = runArguments s args := runArguments_withSetting_of_ne hnone
    have hhigh : high = runArguments s args := runArguments_withSetting_of_ne hnone
    rw [hlow, hhigh]

/-- A name in capitals and small letters beside the name of the program: of three events, the one that
reports a denial is shown under both. -/
theorem log_filter_hides_events_warn :
    let s : Surroundings := ⟨none, "2024-12-06-14-30-25", .fresh ["home"], []⟩
    let args : List Text := ["audit", "frp"]
    let low := runArguments (s.withSetting (some "WaRn")) args
    let high := runArguments (s.withSetting (some "cmd_audit=debug")) args
    let fallback := runArguments (s.withSetting (some "cmd_audit=notalevel")) args
    low.stdout = high.stdout ∧ low.exit = high.exit ∧ high.stdout = fallback.stdout ∧
      high.stderr.length = 3 ∧ low.stderr.length = 1 := by
  intro s args low high fallback
  have hwarn : AsksFor (some "WaRn") (.upTo .warn) := .name (by decide +kernel)
  have hinfo : AsksFor (some "cmd_audit=notalevel") (.upTo .info) := .unreadable (by decide +kernel)
  have hargs : Request.ofArguments args = .ok (.perform ⟨false, none, .audit (.argument "frp")⟩) := by
    decide +kernel
  obtain ⟨hout, hexit, hstderr, -⟩ := log_filter_hides_events s args hwarn .program
  obtain ⟨hout', -, -, -⟩ := log_filter_hides_events s args .program hinfo
  obtain ⟨hhigh, hlow⟩ := hstderr (by decide) _ hargs rfl
  refine ⟨hout, hexit, hout', ?_, ?_⟩
  · rw [hhigh]
    decide +kernel
  · rw [hlow]
    decide +kernel

end CommandVetting
